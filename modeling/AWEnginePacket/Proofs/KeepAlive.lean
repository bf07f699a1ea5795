/-
The KeepAlive check of a server's connection.

# State

Three fields decide it: the payload remembered by `Send`, the time of
the last verdict, and the history. `pulse` is these, the direction, and
the `Send` calls between their check and their post. A step does one of
five things to them (`Beat`): nothing, prepare a message and remember
it if it is a ping, post a message, both, or judge the payload of a
well-formed KeepAlive it has completed; `pong?` is that payload, read
off the state before the step.

# History

`Ledger` says what the fields have to do with the history. The
remembered payload is the last one sent, or 0; the time is the last
verdict's, the epoch for a wrong payload; and every verdict compared
with the payload remembered at its moment. So what is said of the
verdicts in the history is said of the fields (`Ledger.time_of_verdict`,
`Ledger.time_of_intact`).
-/
import AWEnginePacket.Proofs.Delivery
import AWEnginePacket.Lib.Log

namespace AWEnginePacket

open Endian (ByteOrder)
open Effect

-- =========================================================== vocabulary

/-- The payload an observation remembers. -/
def Obs.pinged? : Obs → Option UInt64
  | .pinged payload => some payload
  | _ => none

/-- The time a verdict leaves. -/
def Obs.verdict? : Obs → Option TimePoint
  | .refreshed _ now => some now
  | .dropped _ => some 0
  | _ => none

/-- The observation remembers this payload. -/
def Obs.pings (payload : UInt64) : Obs → Bool
  | .pinged p => p == payload
  | _ => false

/-- The observation accepts this payload. -/
def Obs.refreshes (payload : UInt64) : Obs → Bool
  | .refreshed p _ => p == payload
  | _ => false

/-- The observation rejects this payload. -/
def Obs.drops (payload : UInt64) : Obs → Bool
  | .dropped p => p == payload
  | _ => false

/-- A verdict is right about the payload it compared with. -/
def Obs.Right (pre : List Obs) : Obs → Prop
  | .refreshed payload _ => payload = (Log.last? Obs.pinged? pre).getD 0
  | .dropped payload => payload ≠ (Log.last? Obs.pinged? pre).getD 0
  | _ => True

namespace Connection

variable {host : ByteOrder} {ids : PacketIDs} {c c' : Connection}
  {now : TimePoint} {stream rest : List UInt8} {fs : List WireFrame}
  {a : Action}

/-- The fields of the KeepAlive check. -/
def pulse (c : Connection) :=
  (c.mDirection, c.mLastKeepAliveValue, c.mLastKeepAlive, c.hist, c.calls)

/-- The header of a well-formed KeepAlive. -/
def IsPong (ids : PacketIDs) (h : PacketHeader) : Prop :=
  h.id = ids.keepAlive ∧ h.flags = PacketFlags.none ∧ h.size = 8

instance (h : PacketHeader) : Decidable (IsPong ids h) := by
  unfold IsPong
  infer_instance

variable (host ids) in
/-- The payload of the well-formed KeepAlive that this step completes. -/
def pong? (c : Connection) : Action → Option UInt64
  | .readDone (.body n) true _ =>
      if IsPong ids c.mWipInMessage.header ∧ .body n ∈ c.reads
          ∧ n ≤ c.incoming.length then
        some (loadUInt64 host (c.incoming.take 8))
      else none
  | _ => none

/-- The packet of a `Send` call, whole or begun. -/
def sends? : Action → Option IPacket
  | .send packet => some packet
  | .sendBegin packet => some packet
  | _ => none

/-- What a step does to the KeepAlive check. -/
inductive Beat (host : ByteOrder) (ids : PacketIDs) (c : Connection)
    (a : Action) (c' : Connection) : Prop
  | quiet (ha : sends? a = none) (hp : pong? host ids c a = none)
      (h : c'.pulse = c.pulse)
  | prepared (call : SendCall) (ha : a = .sendBegin call.packet)
      (hcall : Prepared host call)
      (h : c'.pulse = pulse { remembered host ids c call.info with
        calls := (remembered host ids c call.info).calls ++ [call] })
  | posted (i : Nat) (call : SendCall) (ha : a = .sendEnd i)
      (hcall : c.calls[i]? = some call)
      (h : c'.pulse
        = (after (post call) { c with calls := c.calls.eraseIdx i }).pulse)
  | sent (call : SendCall) (ha : a = .send call.packet)
      (hcall : Prepared host call)
      (h : c'.pulse
        = (after (post call) (remembered host ids c call.info)).pulse)
  | judged (payload : UInt64) (now : TimePoint) (ha : sends? a = none)
      (hp : pong? host ids c a = some payload)
      (h : c'.pulse = (judged c payload now).pulse)

-- ================================================== received KeepAlives

/-- Nothing happens to the check. -/
def pulseFrame : Frame Connection where
  rel c c' := c'.pulse = c.pulse
  refl _ := rfl
  trans h h' := h'.trans h

/-- What depends on these fields only. -/
theorem fields_of_pulse (h : c'.pulse = c.pulse) :
    c'.mLastKeepAliveValue = c.mLastKeepAliveValue
      ∧ c'.mLastKeepAlive = c.mLastKeepAlive ∧ c'.hist = c.hist
      ∧ c'.calls = c.calls ∧ c'.sent = c.sent := by
  simp only [pulse, Prod.mk.injEq] at h
  obtain ⟨-, hvalue, htime, hhist, hcalls⟩ := h
  refine ⟨hvalue, htime, hhist, hcalls, ?_⟩
  rw [sent, sent, hhist]

theorem runHandler_pulse (kind : HandlerKind) (m : ConnM PUnit)
    (c : Connection) : (runHandler kind m c).pulse = (after m c).pulse := by
  rcases runHandler_cases kind m c with ⟨h, -⟩ | ⟨e, -, h⟩
  · rw [h]
  · rw [h]
    rfl

theorem fileMessage_keeps (c : Connection) :
    Keeps pulseFrame (fileMessage host ids c) :=
  .ite (initReceived_keeps _) (.bind (fun _ => rfl) fun _ _ => rfl)

/-- A verdict depends on the check's fields only. -/
theorem judged_pulse (h : c'.pulse = c.pulse) (payload : UInt64)
    (now : TimePoint) :
    (judged c' payload now).pulse = (judged c payload now).pulse := by
  simp only [pulse, Prod.mk.injEq] at h
  obtain ⟨hdir, hvalue, -, hhist, hcalls⟩ := h
  unfold judged
  rw [hvalue, hhist]
  split
  · simp only [pulse, hdir, hcalls]
  · simp only [pulse, hdir, hcalls]

/-- A complete message is judged if it is a well-formed KeepAlive. -/
theorem addToIncomingMessageQueue_pulse (hdir : c.mDirection = .toClient) :
    (runHandler .read (addToIncomingMessageQueue host ids now) c).pulse
      = if IsPong ids c.mWipInMessage.header then
          (judged c (loadUInt64 host (c.mWipInMessage.body.bytesFrom 8))
            now).pulse
        else c.pulse := by
  rw [runHandler_congr addToIncomingMessageQueue_run, runHandler_pulse]
  obtain ⟨c₀, hc₀⟩ : ∃ c₀ : Connection,
      c₀ = { c with mLastReceivedMessageTime := now
                    mReceivedPacketCount := c.mReceivedPacketCount + 1 } :=
    ⟨_, rfl⟩
  have hpulse₀ : c₀.pulse = c.pulse := by rw [hc₀]; rfl
  have hdir₀ : c₀.mDirection = .toClient := by rw [hc₀]; exact hdir
  rw [← hc₀]
  by_cases hid : c.mWipInMessage.header.id = ids.keepAlive
  · rw [if_pos hid]
    by_cases hbad : c.mWipInMessage.header.flags ≠ PacketFlags.none
        ∨ c.mWipInMessage.header.size ≠ 8
    · obtain ⟨e, hthrow⟩ :=
        @keepAliveReceived_fault host ids c₀ now c.mWipInMessage hbad
      rw [after_of_error (run_bind_of_error hthrow), hpulse₀, if_neg]
      intro hpong
      rcases hbad with hflags | hsize
      · exact hflags hpong.2.1
      · exact hsize hpong.2.2
    · rw [not_or, not_not, not_not] at hbad
      have hrun := @keepAliveReceived_server host ids c₀ now c.mWipInMessage
        hdir₀ hbad.1 hbad.2
      rw [if_pos ⟨hid, hbad⟩, ← judged_pulse hpulse₀]
      have hkeep := @fileMessage_keeps host ids c
        (judged c₀ (loadUInt64 host (c.mWipInMessage.body.bytesFrom 8)) now)
      rw [after] at hkeep ⊢
      rw [run_bind_of_ok hrun]
      exact hkeep
  · rw [if_neg hid, if_neg fun hpong => hid hpong.1]
    exact (fileMessage_keeps c c₀).trans hpulse₀

/-- Read from its start, a buffer shows its bytes. -/
theorem bytesFrom_fresh (b : List UInt8) :
    PacketBuffer.bytesFrom ⟨b, 0⟩ b.length = b := by
  apply List.ext_getElem
  · rw [PacketBuffer.bytesFrom_length]
  · intro i h₁ h₂
    simp [PacketBuffer.bytesFrom, PacketBuffer.byteAt, h₂]

/-- A KeepAlive's header is not that of a compressed message. -/
theorem IsPong.plain {h : PacketHeader} (hp : IsPong ids h) :
    PacketFlags.test h.flags PacketFlags.compressed = false := by
  rw [hp.2.1]
  rfl

/-- A failed read judges nothing. -/
theorem beat_readFailed {op : ReadOp}
    (hs : step host ids (.readDone op false now) c = some c') :
    Beat host ids c (.readDone op false now) c' := by
  obtain ⟨-, msg, rfl⟩ := of_step_readFailed hs
  cases op with
  | header => exact .quiet rfl rfl rfl
  | body n => exact .quiet rfl rfl rfl

/-- Nor does a header read. -/
theorem beat_headerRead (hdir : c.mDirection = .toClient)
    (hs : step host ids (.readDone .header true now) c = some c') :
    Beat host ids c (.readDone .header true now) c' := by
  have hesc := (of_step hs).1
  have hmem := (of_step_readDone hs).1
  have hlen : 4 ≤ c.incoming.length := wants_le_of_readDone hs
  rw [step_headerRead hesc hmem hlen, Option.some.injEq] at hs
  refine .quiet rfl rfl ?_
  rw [← hs]
  by_cases hsize : (decodeHeader (c.incoming.take 4)).size = 0
  · have hnot : ¬ IsPong ids (headerArrived c).mWipInMessage.header := by
      intro hpong
      have h8 : (decodeHeader (c.incoming.take 4)).size = 8 := hpong.2.2
      rw [hsize] at h8
      cases h8
    have hpulse := @addToIncomingMessageQueue_pulse host ids
      (headerArrived c) now hdir
    rw [if_neg hnot] at hpulse
    rw [if_pos hsize]
    exact hpulse
  · rw [if_neg hsize]
    rfl

/-- A body read judges the payload of a KeepAlive. -/
theorem beat_bodyRead {n : Nat} {d : PacketDirection}
    (hdir : c.mDirection = .toClient) (hr : Reader ids d stream c fs rest)
    (hs : step host ids (.readDone (.body n) true now) c = some c') :
    Beat host ids c (.readDone (.body n) true now) c' := by
  have hesc := (of_step hs).1
  have hmem := (of_step_readDone hs).1
  have hlen : n ≤ c.incoming.length := wants_le_of_readDone hs
  obtain ⟨hb, bs, -, -, hheader, hn, hbody, hbs⟩ :=
    hr.awaiting.of_mem_body hmem
  rw [step_bodyRead hesc hmem hlen, Option.some.injEq] at hs
  cases hflag : PacketFlags.test c.mWipInMessage.header.flags
      PacketFlags.compressed with
  | true =>
      rw [hflag, if_pos rfl] at hs
      refine .quiet rfl ?_ ?_
      · rw [pong?, if_neg]
        intro hpong
        rw [hpong.1.plain] at hflag
        cases hflag
      · rw [← hs]
        rfl
  | false =>
      rw [hflag, if_neg Bool.false_ne_true] at hs
      have hsame : (bodyArrived n c).mWipInMessage.header
          = c.mWipInMessage.header := rfl
      have hpulse := @addToIncomingMessageQueue_pulse host ids
        (bodyArrived n c) now hdir
      rw [hs, hsame] at hpulse
      by_cases hpong : IsPong ids c.mWipInMessage.header
      · have h8 : n = 8 := by
          rw [hn, ← hheader, hpong.2.2]
          rfl
        have hlen8 : (c.incoming.take 8).length = 8 := by
          rw [List.length_take]
          omega
        have hbytes := bytesFrom_fresh (c.incoming.take 8)
        rw [hlen8] at hbytes
        rw [if_pos hpong, bodyArrived_body hbody hbs hlen, h8, hbytes]
          at hpulse
        refine .judged (loadUInt64 host (c.incoming.take 8)) now rfl ?_ ?_
        · rw [pong?, if_pos ⟨hpong, hmem, hlen⟩]
        · have hsame : (bodyArrived 8 c).pulse = c.pulse := rfl
          exact hpulse.trans (judged_pulse hsame _ now)
      · rw [if_neg hpong] at hpulse
        refine .quiet rfl ?_ hpulse
        rw [pong?, if_neg fun h => hpong h.1]

/-- A server's step, as the KeepAlive check sees it. -/
theorem step_beat {d : PacketDirection} (hdir : c.mDirection = .toClient)
    (hr : Reader ids d stream c fs rest)
    (hs : step host ids a c = some c') : Beat host ids c a c' := by
  cases a with
  | send packet =>
      obtain ⟨call, hpacket, hcall, -, rfl⟩ := of_step_send hs
      exact .sent call (by rw [hpacket]) hcall rfl
  | sendBegin packet =>
      obtain ⟨call, hpacket, hcall, -, rfl⟩ := of_step_sendBegin hs
      exact .prepared call (by rw [hpacket]) hcall rfl
  | sendEnd i =>
      obtain ⟨call, hcall, rfl⟩ := of_step_sendEnd hs
      exact .posted i call rfl hcall rfl
  | disconnect =>
      rcases of_step_disconnect hs with rfl | rfl
      · exact .quiet rfl rfl rfl
      · exact .quiet rfl rfl rfl
  | posted =>
      obtain ⟨handler, handlers, -, rfl⟩ := of_step_posted hs
      have h := (@runHandler_apart .posted _ (@runPosted_keeps host handler)
        { c with posted := handlers }).1
      have hpulse := of_apart pulse (fun _ => rfl) h
      exact .quiet rfl rfl hpulse
  | writeDone op ok now =>
      obtain ⟨-, rfl⟩ := of_step_writeDone hs
      have h := (@runHandler_apart .write _
        (@writeCompleted_keeps host op ok now)
        { c with writes := c.writes.erase op }).1
      have hpulse := of_apart pulse (fun _ => rfl) h
      exact .quiet rfl rfl hpulse
  | readDone op ok now =>
      cases ok with
      | false => exact beat_readFailed hs
      | true =>
          cases op with
          | header => exact beat_headerRead hdir hs
          | body n => exact beat_bodyRead hdir hr hs
  | connectDone ok leftOpen =>
      have hc := (of_step_connectDone hs).1
      rw [hr.connecting] at hc
      cases hc

-- ================================================================ ledger

/-- The check's fields and the history belong together. -/
structure Ledger (start : TimePoint) (c : Connection) : Prop where
  value : c.mLastKeepAliveValue = (Log.last? Obs.pinged? c.hist).getD 0
  time : c.mLastKeepAlive = (Log.last? Obs.verdict? c.hist).getD start
  right : Log.Justified Obs.Right c.hist

theorem Ledger.of_pulse {start : TimePoint} (h : Ledger start c)
    (hpulse : c'.pulse = c.pulse) : Ledger start c' := by
  obtain ⟨hvalue, htime, hhist, -⟩ := fields_of_pulse hpulse
  refine ⟨?_, ?_, ?_⟩
  · rw [hvalue, hhist]
    exact h.value
  · rw [htime, hhist]
    exact h.time
  · rw [hhist]
    exact h.right

/-- An entry that is neither a ping nor a verdict. -/
theorem Ledger.enter {start : TimePoint} (h : Ledger start c) {o : Obs}
    (hping : o.pinged? = none) (hverdict : o.verdict? = none)
    (hright : o.Right c.hist) :
    Ledger start { c with hist := c.hist ++ [o] } := by
  refine ⟨?_, ?_, Log.justified_append_singleton.mpr ⟨h.right, hright⟩⟩
  · rw [Log.last?_append_of_none hping]
    exact h.value
  · rw [Log.last?_append_of_none hverdict]
    exact h.time

/-- The calls have nothing to do with it. -/
theorem Ledger.with_calls {start : TimePoint} (h : Ledger start c)
    (calls : List SendCall) : Ledger start { c with calls := calls } :=
  ⟨h.value, h.time, h.right⟩

/-- A post is entered. -/
theorem Ledger.post {start : TimePoint} (h : Ledger start c)
    (call : SendCall) : Ledger start (after (post call) c) := by
  have henter := @Ledger.enter c start h (.posted call) rfl rfl trivial
  exact henter.of_pulse rfl

/-- The payload of a ping is remembered and entered. -/
theorem Ledger.remembered {start : TimePoint} (h : Ledger start c)
    (info : PacketSendInfo) : Ledger start (remembered host ids c info) := by
  unfold Connection.remembered
  by_cases hcaptures : Captures ids c info
  · obtain ⟨p, hp⟩ : ∃ p, p = loadUInt64 host (info.body.bytesFrom 8) :=
      ⟨_, rfl⟩
    have hping : (Obs.pinged p).pinged? = some p := rfl
    have hverdict : (Obs.pinged p).verdict? = none := rfl
    rw [if_pos hcaptures, ← hp]
    refine ⟨?_, ?_, Log.justified_append_singleton.mpr ⟨h.right, trivial⟩⟩
    · rw [Log.last?_append_of_some hping]
      rfl
    · rw [Log.last?_append_of_none hverdict]
      exact h.time
  · rw [if_neg hcaptures]
    exact h

/-- A verdict is entered. -/
theorem Ledger.verdict {start t : TimePoint} (h : Ledger start c) {o : Obs}
    (hping : o.pinged? = none) (hverdict : o.verdict? = some t)
    (hright : o.Right c.hist) :
    Ledger start { c with mLastKeepAlive := t, hist := c.hist ++ [o] } := by
  refine ⟨?_, ?_, Log.justified_append_singleton.mpr ⟨h.right, hright⟩⟩
  · rw [Log.last?_append_of_none hping]
    exact h.value
  · rw [Log.last?_append_of_some hverdict]
    rfl

theorem Ledger.judged {start : TimePoint} (h : Ledger start c)
    (payload : UInt64) (now : TimePoint) :
    Ledger start (judged c payload now) := by
  unfold Connection.judged
  by_cases heq : payload = c.mLastKeepAliveValue
  · rw [if_pos heq]
    refine h.verdict rfl rfl ?_
    exact heq.trans h.value
  · rw [if_neg heq]
    refine h.verdict rfl rfl ?_
    exact fun hp => heq (hp.trans h.value.symm)

/-- After a verdict the time is the one it left, until the next. -/
theorem Ledger.time_of_verdict {start t : TimePoint} (h : Ledger start c)
    {pre post : List Obs} {o : Obs} (hhist : c.hist = pre ++ o :: post)
    (ho : o.verdict? = some t) (hpost : ∀ x ∈ post, x.verdict? = none) :
    c.mLastKeepAlive = t := by
  have hlast : Log.last? Obs.verdict? c.hist = some t := by
    rw [hhist, List.append_cons, Log.last?_append_of_forall_none hpost,
      Log.last?_append_of_some ho]
  rw [h.time, hlast]
  rfl

/-- The time of a client that has not been given up is that of the start,
or of an echo that was accepted. -/
theorem Ledger.time_of_intact {start : TimePoint} (h : Ledger start c)
    (hintact : ∀ payload, Obs.dropped payload ∉ c.hist) :
    c.mLastKeepAlive = start
      ∨ ∃ payload, Obs.refreshed payload c.mLastKeepAlive ∈ c.hist := by
  have htime := h.time
  cases hlast : Log.last? Obs.verdict? c.hist with
  | none =>
      rw [hlast] at htime
      exact .inl htime
  | some t =>
      rw [hlast] at htime
      obtain ⟨o, hmem, ho⟩ := Log.exists_of_last? hlast
      cases o with
      | refreshed payload now =>
          injection ho with ho
          rw [htime, Option.getD_some, ← ho]
          exact .inr ⟨payload, hmem⟩
      | dropped payload => exact absurd hmem (hintact payload)
      | _ => cases ho

/-- Every step keeps the ledger. -/
theorem Beat.ledger {start : TimePoint} (hb : Beat host ids c a c')
    (h : Ledger start c) : Ledger start c' := by
  cases hb with
  | quiet _ _ hpulse => exact h.of_pulse hpulse
  | prepared call _ _ hpulse =>
      have hledger := @Ledger.remembered host ids c start h call.info
      exact (hledger.with_calls _).of_pulse hpulse
  | posted i call _ _ hpulse =>
      exact ((h.with_calls _).post call).of_pulse hpulse
  | sent call _ _ hpulse =>
      exact ((h.remembered call.info).post call).of_pulse hpulse
  | judged payload now _ _ hpulse => exact (h.judged payload now).of_pulse hpulse

/-- Every run of a server's connection keeps the ledger. -/
theorem ledger_run {self : Nat} {start : TimePoint} {acts : List Action}
    (hrun : Lts.run (step host ids) (started self stream start) acts = some c) :
    (∃ fs rest, Reader ids .toClient stream c fs rest) ∧ Ledger start c := by
  refine Lts.run_invariant (fun c =>
    (∃ fs rest, Reader ids .toClient stream c fs rest) ∧ Ledger start c)
    ?_ ?_ hrun
  · intro c a c' h hs
    obtain ⟨⟨fs, rest, hr⟩, hl⟩ := h
    obtain ⟨fs', rest', hr', -⟩ := reader_step hr hs
    exact ⟨⟨fs', rest', hr'⟩, (step_beat hr.direction hr hs).ledger hl⟩
  · refine ⟨⟨[], stream, ?_⟩, ⟨rfl, rfl, Log.justified_nil⟩⟩
    exact (listening_started self stream start).reader

-- =========================================================== wrong echoes

variable (host ids) in
/-- The step does not complete a KeepAlive with the remembered
payload. -/
def NoRightPong (c : Connection) (a : Action) : Prop :=
  pong? host ids c a ≠ some c.mLastKeepAliveValue

instance (c : Connection) (a : Action) :
    Decidable (NoRightPong host ids c a) := by
  unfold NoRightPong
  infer_instance

/-- Any other verdict leaves the epoch, and nothing else changes the
time. -/
theorem Beat.time (hb : Beat host ids c a c')
    (hno : NoRightPong host ids c a) :
    c'.mLastKeepAlive
      = if (pong? host ids c a).isSome then 0 else c.mLastKeepAlive := by
  have hremembered (info : PacketSendInfo) :
      (remembered host ids c info).mLastKeepAlive = c.mLastKeepAlive := by
    unfold remembered
    split
    · rfl
    · rfl
  cases hb with
  | quiet _ hp hpulse =>
      rw [hp]
      exact (fields_of_pulse hpulse).2.1
  | prepared call ha _ hpulse =>
      rw [ha]
      exact (fields_of_pulse hpulse).2.1.trans (hremembered call.info)
  | posted i call ha _ hpulse =>
      rw [ha]
      exact (fields_of_pulse hpulse).2.1
  | sent call ha _ hpulse =>
      rw [ha]
      exact (fields_of_pulse hpulse).2.1.trans (hremembered call.info)
  | judged payload now _ hp hpulse =>
      have hne : payload ≠ c.mLastKeepAliveValue := by
        intro heq
        exact hno (by rw [hp, heq])
      rw [(fields_of_pulse hpulse).2.1, hp, Connection.judged, if_neg hne]
      rfl

/-- After a wrong payload, the time stays the epoch until a right one
arrives. -/
theorem stays_epoch {acts : List Action}
    (hr : ∃ fs rest, Reader ids .toClient stream c fs rest)
    (h₀ : c.mLastKeepAlive = 0)
    (hno : Lts.Meets (step host ids) (NoRightPong host ids) c acts)
    (hrun : Lts.run (step host ids) c acts = some c') :
    c'.mLastKeepAlive = 0 := by
  have hstep : (∃ fs rest, Reader ids .toClient stream c' fs rest)
      ∧ c'.mLastKeepAlive = 0 := by
    refine Lts.run_invariant_of_meets (fun c =>
      (∃ fs rest, Reader ids .toClient stream c fs rest)
        ∧ c.mLastKeepAlive = 0) ?_ ⟨hr, h₀⟩ hno hrun
    intro c a c' h hno hs
    obtain ⟨⟨fs, rest, hr⟩, h₀⟩ := h
    obtain ⟨fs', rest', hr', -⟩ := reader_step hr hs
    refine ⟨⟨fs', rest', hr'⟩, ?_⟩
    rw [(step_beat hr.direction hr hs).time hno, h₀, ite_self]
  exact hstep.2

-- ========================================================== genuine echoes

/-- Once a server has sent a ping, only the payload of the latest one
refreshes the connection. What the history enters as a refresh is one:
until the next verdict its time is that of the connection. -/
theorem refreshed_is_last_ping {self : Nat} {start t : TimePoint}
    {acts : List Action} {pre post : List Obs} {payload latest : UInt64}
    (hrun : Lts.run (step host ids) (started self stream start) acts = some c)
    (hhist : c.hist = pre ++ .refreshed payload t :: post)
    (hlatest : Log.last? Obs.pinged? pre = some latest) :
    payload = latest
      ∧ ((∀ o ∈ post, o.verdict? = none) → c.mLastKeepAlive = t) := by
  have hledger := (ledger_run hrun).2
  refine ⟨?_, hledger.time_of_verdict hhist rfl⟩
  have heq : payload = (Log.last? Obs.pinged? pre).getD 0 :=
    hledger.right pre _ post hhist
  rw [hlatest] at heq
  exact heq

/-- So is a refresh that is read off the connection alone: a step that
sets its time to anything but the epoch completes a KeepAlive with the
payload of the latest ping. -/
theorem renewed_by_last_ping {self : Nat} {start : TimePoint}
    {acts : List Action} {latest : UInt64}
    (hrun : Lts.run (step host ids) (started self stream start) acts = some c)
    (hlatest : Log.last? Obs.pinged? c.hist = some latest)
    (hs : step host ids a c = some c')
    (hne : c'.mLastKeepAlive ≠ c.mLastKeepAlive)
    (hepoch : c'.mLastKeepAlive ≠ 0) : pong? host ids c a = some latest := by
  obtain ⟨⟨fs, rest, hr⟩, hledger⟩ := ledger_run hrun
  have hvalue := hledger.value
  rw [hlatest, Option.getD_some] at hvalue
  by_contra hno
  rw [← hvalue] at hno
  have htime := (step_beat hr.direction hr hs).time hno
  split at htime
  · exact hepoch htime
  · exact hne htime

/-- A history that ends with an accepted payload. -/
theorem of_last_refreshes {hist : List Obs} {payload : UInt64}
    (h : hist.getLast?.any (Obs.refreshes payload) = true) :
    ∃ t, hist = hist.dropLast ++ [.refreshed payload t] := by
  cases hlast : hist.getLast? with
  | none =>
      rw [hlast] at h
      cases h
  | some o =>
      rw [hlast, Option.any_some] at h
      obtain ⟨pre, rfl⟩ := List.getLast?_eq_some_iff.mp hlast
      rw [List.dropLast_concat]
      cases o with
      | refreshed p t =>
          have hp : p = payload := beq_iff_eq.mp h
          exact ⟨t, by rw [hp]⟩
      | _ => cases h

/-- A ping and its echo. -/
theorem refreshed_is_last_ping_echo :
    ∃ c pre payload t, Lts.run (step .little ⟨1, 2⟩)
        (started 0 [1, 0, 0, 8, 7, 0, 0, 0, 0, 0, 0, 0] 0)
        [.send (Ping.toPacket .little 1 ⟨7⟩), .readDone .header true 1,
          .readDone (.body 8) true 2] = some c
      ∧ c.hist = pre ++ [.refreshed payload t] ∧ payload = 7
      ∧ c.mLastKeepAlive = t := by
  have hend : (Lts.run (step .little ⟨1, 2⟩)
      (started 0 [1, 0, 0, 8, 7, 0, 0, 0, 0, 0, 0, 0] 0)
      [.send (Ping.toPacket .little 1 ⟨7⟩), .readDone .header true 1,
        .readDone (.body 8) true 2]).map (fun c =>
          (c.hist.getLast?.any (Obs.refreshes 7),
            Log.last? Obs.pinged? c.hist.dropLast)) = some (true, some 7) := by
    decide +kernel
  obtain ⟨c, hrun, hc⟩ := Option.map_eq_some_iff.mp hend
  rw [Prod.mk.injEq] at hc
  obtain ⟨t, hhist⟩ := of_last_refreshes hc.1
  obtain ⟨hpayload, htime⟩ := refreshed_is_last_ping hrun hhist hc.2
  exact ⟨c, _, 7, t, hrun, hhist, hpayload, htime (List.forall_mem_nil _)⟩

/-- An echo sent twice refreshes twice. -/
theorem echo_refreshes_twice :
    ¬ ∀ (host : ByteOrder) (ids : PacketIDs) (self : Nat)
        (stream : List UInt8) (start t : TimePoint) (acts : List Action)
        (c : Connection) (pre post : List Obs) (payload : UInt64),
      Lts.run (step host ids) (started self stream start) acts = some c →
      c.hist = pre ++ .refreshed payload t :: post →
      pre.countP (Obs.refreshes payload) < pre.countP (Obs.pings payload) := by
  intro h
  have hend : (Lts.run (step .little ⟨1, 2⟩)
      (started 0 [1, 0, 0, 8, 7, 0, 0, 0, 0, 0, 0, 0,
        1, 0, 0, 8, 7, 0, 0, 0, 0, 0, 0, 0] 0)
      [.send (Ping.toPacket .little 1 ⟨7⟩), .readDone .header true 1,
        .readDone (.body 8) true 2, .readDone .header true 3,
        .readDone (.body 8) true 4]).map (fun c =>
          (c.hist.getLast?.any (Obs.refreshes 7),
            c.hist.dropLast.countP (Obs.refreshes 7),
            c.hist.dropLast.countP (Obs.pings 7))) = some (true, 1, 1) := by
    decide +kernel
  obtain ⟨c, hrun, hc⟩ := Option.map_eq_some_iff.mp hend
  simp only [Prod.mk.injEq] at hc
  obtain ⟨hlast, hrefreshed, hpinged⟩ := hc
  obtain ⟨t, hhist⟩ := of_last_refreshes hlast
  have hlt := h .little ⟨1, 2⟩ 0 _ 0 t _ c _ [] 7 hrun hhist
  omega

end Connection

end AWEnginePacket
