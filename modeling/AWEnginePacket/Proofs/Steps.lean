/-
One event at a time.

`of_step` and the `of_step_…` lemmas invert `step`, one for each action:
what must have been the case for the event to happen, and which method
ran from which state. What a handler throws ends the run, so
`runHandler_cases` is the only place where that is looked at.

Two frames separate the sides. `readDone_cases`: a read completion
leaves the sending side to its posts, or closes the socket.
`writeFrame`: the write handlers touch nothing but the queue, the
writes and the socket, which is all `apart` blanks out. `steady_step`:
the socket changes in a connect completion and where `closes` says so.
-/
import AWEnginePacket.Proofs.Sending

namespace AWEnginePacket

open Endian (ByteOrder)
open Effect

namespace Connection

variable {host : ByteOrder} {ids : PacketIDs} {c c' : Connection}

-- ============================================================= handlers

/-- The step closes the open socket: a posted close, a failed
completion, or the end of a compressed message. -/
def closes (c : Connection) : Action → Bool
  | .posted => c.isOpen && c.posted.head? == some .close
  | .writeDone _ ok _ => c.isOpen && !ok
  | .readDone .header ok _ => c.isOpen && !ok
  | .readDone (.body _) ok _ =>
      c.isOpen && (!ok || PacketFlags.test c.mWipInMessage.header.flags
        PacketFlags.compressed)
  | _ => false

/-- How a handler on the io thread ends. -/
theorem runHandler_cases (kind : HandlerKind) (m : ConnM PUnit)
    (c : Connection) :
    (runHandler kind m c = after m c ∧ ∃ c₁, m.run c = .ok ⟨⟩ c₁)
      ∨ ∃ e, m.run c = .error e (after m c) ∧ runHandler kind m c
          = { after m c with escaped := some (kind, e) } := by
  unfold runHandler after
  cases m.run c with
  | ok u c₁ => exact .inl ⟨rfl, c₁, rfl⟩
  | error e c₁ => exact .inr ⟨e, rfl, rfl⟩

/-- Nothing has left a handler but what a read handler threw of its
own. -/
def WritesIntact (c : Connection) : Prop :=
  c.escaped = none ∨ ∃ e, c.escaped = some (.read, e) ∧ e ≠ notConnected

/-- A read handler in the frame leaves the sending side to its posts,
and an exception is its own. -/
theorem runHandler_posts {m : ConnM PUnit} (hm : Keeps (sendFrame host) m)
    (ht : ThrowsOther m) (hesc : c.escaped = none) :
    (∃ new, Posts host c (runHandler .read m c) new)
      ∧ WritesIntact (runHandler .read m c) := by
  obtain ⟨⟨new, hp⟩, he⟩ := hm c
  rcases runHandler_cases .read m c with ⟨h, -⟩ | ⟨e, hrun, h⟩
  · rw [h]
    exact ⟨⟨new, hp⟩, .inl (he.trans hesc)⟩
  · rw [h]
    refine ⟨⟨new, ?_⟩, .inr ⟨e, rfl, ht _ _ _ hrun⟩⟩
    exact ⟨hp.messagesOut, hp.writes, hp.handed, hp.count, hp.calls,
      hp.isConnecting, hp.connecting, hp.isOpen, hp.posted, hp.sent,
      hp.prepared, hp.connected⟩

/-- Moving received bytes into the message leaves the sending side and
the object alone. -/
theorem of_transfer {op : ReadOp} (h : transfer host op c = some c') :
    c'.sendSide = c.sendSide ∧ c'.escaped = c.escaped
      ∧ (c'.mWipInMessage.header = match op with
        | .header => PacketHeader.ofMemory host (c.incoming.take 4)
        | .body _ => c.mWipInMessage.header)
      ∧ c'.self = c.self := by
  cases op with
  | header =>
      unfold transfer at h
      simp only at h
      split at h
      · cases h
      · injection h with h
        subst h
        exact ⟨rfl, rfl, rfl, rfl⟩
  | body n =>
      unfold transfer at h
      simp only at h
      split at h
      · cases h
      · injection h with h
        subst h
        exact ⟨rfl, rfl, rfl, rfl⟩

/-- The two ways a read completion leaves the sending side: closed, or
as its posts left it. -/
def ReadOutcome (host : ByteOrder) (c c' : Connection) (closing : Bool) :
    Prop :=
  closing = true ∧ c'.isOpen = false ∧ c'.escaped = c.escaped
      ∧ Posts host c { c' with isOpen := c.isOpen } []
    ∨ closing = false ∧ ∃ new, Posts host c c' new

/-- A handler that only closes the socket. -/
theorem closing_outcome {c₁ : Connection} (hside : c₁.sendSide = c.sendSide)
    (hesc : c₁.escaped = c.escaped) (hc' : c' = { c₁ with isOpen := false }) (closing : Bool)
    (hclosing : closing = c.isOpen) : ReadOutcome host c c' closing := by
  subst hc' hclosing
  simp only [sendSide, Prod.mk.injEq] at hside
  have hside' : sendSide { c₁ with isOpen := c.isOpen } = c.sendSide := by
    simp only [sendSide, Prod.mk.injEq]
    exact ⟨hside.1, hside.2.1, hside.2.2.1, hside.2.2.2.1,
      hside.2.2.2.2.1, hside.2.2.2.2.2.1, hside.2.2.2.2.2.2.1, trivial,
      hside.2.2.2.2.2.2.2.2⟩
  cases hopen : c.isOpen with
  | true =>
      rw [hopen] at hside'
      exact .inl ⟨rfl, rfl, hesc, by rw [hopen]; exact .of_sendSide_eq hside'⟩
  | false =>
      rw [hopen] at hside'
      exact .inr ⟨rfl, [], .of_sendSide_eq hside'⟩

theorem headerRead_keeps (now : TimePoint) :
    Keeps (sendFrame host) (headerRead host ids true now) := by
  refine .bind (keeps_sendFrame ?_) fun _ => ?_
  · intro _
    exact ⟨rfl, rfl⟩
  · exact keeps_get.bind fun _ =>
      .ite (addToIncomingMessageQueue_keeps now) readBody_keeps

theorem headerRead_throws (now : TimePoint) :
    ThrowsOther (headerRead host ids true now) := by
  refine (throws_modify _).bind fun _ => throws_get.bind fun _ => .ite ?_ ?_
  · exact addToIncomingMessageQueue_throws now
  · exact (throws_modify _).bind fun _ => throws_get.bind fun _ =>
      throws_modify _

variable (host ids) in
/-- A failed read closes the socket, whichever read it was. -/
theorem readFailed_eq (op : ReadOp) (now : TimePoint) (c : Connection) :
    ∃ msg, runHandler .read (readCompleted host ids op false now) c
      = { c with mWipInMessage := msg, isOpen := false } := by
  cases op with
  | header =>
      let size := be16toh host c.mWipInMessage.header.size
      exact ⟨{ c.mWipInMessage with header.size := size }, rfl⟩
  | body n => exact ⟨c.mWipInMessage, rfl⟩

/-- The body of a compressed message closes the socket. -/
theorem bodyRead_compressed {now : TimePoint}
    (h : PacketFlags.test c.mWipInMessage.header.flags
      PacketFlags.compressed = true) :
    (bodyRead host ids true now).run c = .ok ⟨⟩ { c with isOpen := false } := by
  unfold bodyRead
  rw [if_pos rfl, EStateM.run_bind, EStateM.run_get]
  simp only
  rw [if_pos h]
  rfl

/-- Any other body completes the message. -/
theorem bodyRead_plain {now : TimePoint}
    (h : PacketFlags.test c.mWipInMessage.header.flags
      PacketFlags.compressed = false) :
    (bodyRead host ids true now).run c
      = (addToIncomingMessageQueue host ids now).run c := by
  unfold bodyRead
  rw [if_pos rfl, EStateM.run_bind, EStateM.run_get]
  simp only
  rw [if_neg (by rw [h]; exact Bool.false_ne_true)]

theorem runHandler_congr {kind : HandlerKind} {m m' : ConnM PUnit}
    (h : m.run c = m'.run c') :
    runHandler kind m c = runHandler kind m' c' := by
  rw [runHandler, runHandler, h]

/-- A step is an event before which no exception has left a handler. -/
theorem of_step {a : Action} (h : step host ids a c = some c') :
    c.escaped = none ∧ event host ids a c = some c' := by
  unfold step at h
  split at h
  case isTrue => cases h
  case isFalse hesc => exact ⟨by simpa using hesc, h⟩

theorem step_eq_event (hesc : c.escaped = none) (a : Action) :
    step host ids a c = event host ids a c := by
  unfold step
  rw [if_neg (by rw [hesc]; exact Bool.false_ne_true)]

theorem of_step_send {packet : IPacket}
    (h : step host ids (.send packet) c = some c') :
    ∃ call, call.packet = packet ∧ Prepared host call
      ∧ c.isConnected = true
      ∧ c' = after (post call) (remembered host ids c call.info) := by
  have h := (of_step h).2
  unfold event at h
  simp only at h
  split at h
  case h_1 hrun =>
    rw [Option.some.injEq] at h
    exact of_send_ok (h ▸ hrun)
  case h_2 => cases h

theorem of_step_sendBegin {packet : IPacket}
    (h : step host ids (.sendBegin packet) c = some c') :
    ∃ call, call.packet = packet ∧ Prepared host call
      ∧ c.isConnected = true
      ∧ c' = { remembered host ids c call.info with
                calls := (remembered host ids c call.info).calls ++ [call] } := by
  have h := (of_step h).2
  unfold event at h
  simp only at h
  split at h
  case h_1 call c₁ hrun =>
    rw [Option.some.injEq] at h
    obtain ⟨hc, hpacket, hp, rfl⟩ := of_prepare_ok host ids hrun
    exact ⟨call, hpacket, hp, hc, h.symm⟩
  case h_2 => cases h

/-- The first half of a `Send` that goes on is an event. -/
theorem step_sendBegin {packet : IPacket} (hesc : c.escaped = none)
    (hrun : (sendBegin host ids packet).run c = .ok ⟨⟩ c') :
    step host ids (.sendBegin packet) c = some c' := by
  obtain ⟨call, c₁, hprep, hcall⟩ := of_run_bind_ok hrun
  injection hcall with _ hcall
  rw [step_eq_event hesc]
  simp only [event, hprep, ← hcall]

/-- The halves of a `Send`, one after the other. -/
theorem send_halves {packet : IPacket} (hesc : c.escaped = none)
    (hcalls : c.calls = [])
    (hrun : (sendBegin host ids packet).run c = .ok ⟨⟩ c') :
    ∃ c₂, (send host ids packet).run c = .ok ⟨⟩ c₂
      ∧ step host ids (.sendEnd 0) c' = some c₂
      ∧ c₂.escaped = none ∧ c₂.calls = [] := by
  obtain ⟨call, c₁, hprep, hcall⟩ := of_run_bind_ok hrun
  injection hcall with _ hcall
  obtain ⟨-, -, -, hc₁⟩ := of_prepare_ok host ids hprep
  have hcalls₁ : c₁.calls = [] := by
    rw [hc₁, (remembered_posts host ids c call.info).calls, hcalls]
  have hesc₁ : c₁.escaped = none := by
    rw [hc₁, remembered_escaped, hesc]
  refine ⟨after (post call) c₁, run_bind_of_ok hprep, ?_, hesc₁, hcalls₁⟩
  have hesc' : c'.escaped = none := by
    rw [← hcall]
    exact hesc₁
  rw [step_eq_event hesc', ← hcall]
  simp only [event, hcalls₁, List.nil_append, List.getElem?_cons_zero,
    List.eraseIdx_cons_zero]
  rw [← hcalls₁]

theorem of_step_sendEnd {i : Nat}
    (h : step host ids (.sendEnd i) c = some c') :
    ∃ call, c.calls[i]? = some call
      ∧ c' = after (post call) { c with calls := c.calls.eraseIdx i } := by
  have h := (of_step h).2
  unfold event at h
  simp only at h
  split at h
  case h_1 call hcall =>
    rw [Option.some.injEq] at h
    exact ⟨call, hcall, h.symm⟩
  case h_2 => cases h

theorem of_step_disconnect (h : step host ids .disconnect c = some c') :
    c' = c ∨ c' = { c with posted := c.posted ++ [.close] } := by
  have h := (of_step h).2
  unfold event at h
  rw [Option.some.injEq] at h
  rw [← h]
  unfold disconnect
  cases hc : c.isConnected with
  | true =>
      refine .inr ?_
      rw [after, EStateM.run_bind, EStateM.run_get]
      simp only [hc, if_true]
      rfl
  | false =>
      refine .inl ?_
      rw [after, EStateM.run_bind, EStateM.run_get]
      simp only [hc, Bool.false_eq_true, if_false]
      rfl

theorem of_step_posted (h : step host ids .posted c = some c') :
    ∃ handler rest, c.posted = handler :: rest
      ∧ c' = runHandler .posted (runPosted host handler)
        { c with posted := rest } := by
  have h := (of_step h).2
  unfold event at h
  simp only at h
  split at h
  case h_1 => cases h
  case h_2 handler rest hposted =>
    rw [Option.some.injEq] at h
    exact ⟨handler, rest, hposted, h.symm⟩

theorem of_step_writeDone {op : WriteOp} {ok : Bool} {now : TimePoint}
    (h : step host ids (.writeDone op ok now) c = some c') :
    op ∈ c.writes ∧ c' = runHandler .write (writeCompleted host op ok now)
      { c with writes := c.writes.erase op } := by
  have h := (of_step h).2
  unfold event at h
  simp only at h
  split at h
  case isTrue hmem =>
    rw [Option.some.injEq] at h
    exact ⟨hmem, h.symm⟩
  case isFalse => cases h

/-- A read step is the handler, after the transfer where it succeeds. -/
theorem of_step_readDone {op : ReadOp} {ok : Bool} {now : TimePoint}
    (h : step host ids (.readDone op ok now) c = some c') :
    op ∈ c.reads
      ∧ if ok then ∃ c₁, transfer host op { c with reads := c.reads.erase op }
            = some c₁
          ∧ c' = runHandler .read (readCompleted host ids op true now) c₁
        else c' = runHandler .read (readCompleted host ids op false now)
          { c with reads := c.reads.erase op } := by
  have h := (of_step h).2
  unfold event at h
  simp only at h
  split at h
  case isFalse => cases h
  case isTrue hmem =>
    refine ⟨hmem, ?_⟩
    cases ok with
    | false =>
        rw [if_neg Bool.false_ne_true, Option.some.injEq] at h
        exact h.symm
    | true =>
        rw [if_pos rfl, Option.map_eq_some_iff] at h
        obtain ⟨c₁, htransfer, hrun⟩ := h
        exact ⟨c₁, htransfer, hrun.symm⟩

/-- A failed read closes the socket. -/
theorem of_step_readFailed {op : ReadOp} {now : TimePoint}
    (h : step host ids (.readDone op false now) c = some c') :
    op ∈ c.reads ∧ ∃ msg, c' = { c with reads := c.reads.erase op
                                        mWipInMessage := msg
                                        isOpen := false } := by
  obtain ⟨hmem, h⟩ := of_step_readDone h
  rw [if_neg Bool.false_ne_true] at h
  obtain ⟨msg, hrun⟩ := readFailed_eq host ids op now
    { c with reads := c.reads.erase op }
  exact ⟨hmem, msg, h.trans hrun⟩

theorem of_step_connectDone {ok leftOpen : Bool}
    (h : step host ids (.connectDone ok leftOpen) c = some c') :
    c.connecting = true
      ∧ c' = runHandler .connect (connectCompleted host ids ok)
        { c with connecting := false, isOpen := ok || leftOpen } := by
  have h := (of_step h).2
  unfold event at h
  simp only at h
  split at h
  case isTrue hc =>
    rw [Option.some.injEq] at h
    exact ⟨hc, h.symm⟩
  case isFalse => cases h

/-- A successful connect sends the `Init` packet, where there is one, and
starts to read. -/
theorem connectCompleted_run (c : Connection) :
    (connectCompleted host ids true).run c
      = (match c.mInitPacket with
          | some packet => send host ids packet >>= fun _ => readHeader
          | none => readHeader).run { c with mIsConnecting := false } := by
  unfold connectCompleted
  rw [EStateM.run_bind, EStateM.run_modify]
  simp only [if_true]
  rw [EStateM.run_bind, EStateM.run_get]
  cases hinit : c.mInitPacket with
  | none => rfl
  | some packet => rfl

/-- A client's side of a connection whose connect succeeded, before it
sends or reads. -/
def linked (self : Nat) (incoming : List UInt8) (now : TimePoint)
    (initPacket : Option IPacket) : Connection :=
  { create self .toServer false incoming now with
    mInitPacket := initPacket
    isOpen := true }

/-- The same once the handler is through: its `Init` packet, where there
is one, has been sent, and the read of a header is outstanding. -/
theorem of_connectToServer {self : Nat} {incoming : List UInt8}
    {now : TimePoint} {initPacket : Option IPacket} {leftOpen : Bool}
    (h : step host ids (.connectDone true leftOpen)
      (after (connectToServer initPacket)
        (create self .toServer false incoming now)) = some c)
    (hesc : c.escaped = none) :
    ∃ c₁, c = { c₁ with reads := c₁.reads ++ [.header] }
      ∧ ((initPacket = none ∧ c₁ = linked self incoming now none)
        ∨ ∃ packet, initPacket = some packet
          ∧ (send host ids packet).run
              (linked self incoming now (some packet)) = .ok ⟨⟩ c₁) := by
  obtain ⟨-, hc⟩ := of_step_connectDone h
  rw [runHandler_congr (connectCompleted_run _)] at hc
  cases initPacket with
  | none => exact ⟨_, hc, .inl ⟨rfl, rfl⟩⟩
  | some packet =>
      rcases runHandler_cases .connect _ _ with ⟨hok, c₁, hrun⟩ | ⟨e, -, herr⟩
      · rw [hok, after_of_ok hrun] at hc
        subst hc
        obtain ⟨⟨⟩, c₂, hsend, hread⟩ := of_run_bind_ok hrun
        injection hread with _ hread
        exact ⟨c₂, hread.symm, .inr ⟨packet, rfl, hsend⟩⟩
      · rw [herr] at hc
        rw [hc] at hesc
        cases hesc

/-- What a read completion does to the sending side. -/
theorem readDone_cases {op : ReadOp} {ok : Bool} {now : TimePoint}
    (h : step host ids (.readDone op ok now) c = some c') :
    WritesIntact c'
      ∧ ReadOutcome host c c' (closes c (.readDone op ok now)) := by
  have hnone := (of_step h).1
  cases ok with
  | false =>
      obtain ⟨-, msg, h⟩ := of_step_readFailed h
      have hside : sendSide { c with reads := c.reads.erase op
                                     mWipInMessage := msg } = c.sendSide := rfl
      refine ⟨.inl ?_, closing_outcome hside rfl h _ ?_⟩
      · rw [h]
        exact hnone
      · cases op with
        | header => exact Bool.and_true _
        | body n => exact Bool.and_true _
  | true =>
      obtain ⟨-, h⟩ := of_step_readDone h
      rw [if_pos rfl] at h
      obtain ⟨c₁, htransfer, hrun⟩ := h
      obtain ⟨hmoved, hesc, hheader, -⟩ := of_transfer htransfer
      have hside : c₁.sendSide = c.sendSide := hmoved
      have hposts : Posts host c c₁ [] := .of_sendSide_eq hside
      -- a handler in the frame, from the state after the transfer
      have hkeeps (m : ConnM PUnit) (hm : Keeps (sendFrame host) m)
          (ht : ThrowsOther m) (hc' : c' = runHandler .read m c₁) :
          WritesIntact c' ∧ ∃ new, Posts host c c' new := by
        obtain ⟨⟨new, hp⟩, he⟩ := runHandler_posts hm ht (hesc.trans hnone)
        rw [← hc'] at hp he
        exact ⟨he, [] ++ new, hposts.trans hp⟩
      cases op with
      | header =>
          obtain ⟨he, hp⟩ := hkeeps _ (headerRead_keeps now)
            (headerRead_throws now) hrun
          exact ⟨he, .inr ⟨Bool.and_false _, hp⟩⟩
      | body n =>
          simp only at hheader
          cases hflag : PacketFlags.test c.mWipInMessage.header.flags
              PacketFlags.compressed with
          | true =>
              have hclose : (readCompleted host ids (.body n) true now).run c₁
                  = .ok ⟨⟩ { c₁ with isOpen := false } :=
                bodyRead_compressed (by rw [hheader]; exact hflag)
              have hc' : c' = { c₁ with isOpen := false } := by
                rw [hrun, runHandler, hclose]
              refine ⟨.inl ?_, closing_outcome hside hesc hc' _ ?_⟩
              · rw [hc']
                exact hesc.trans hnone
              · show (c.isOpen && (false || _)) = _
                rw [hflag, Bool.false_or, Bool.and_true]
          | false =>
              have hc' := hrun.trans (runHandler_congr (bodyRead_plain
                (by rw [hheader]; exact hflag)))
              obtain ⟨he, hp⟩ := hkeeps _
                (addToIncomingMessageQueue_keeps now)
                (addToIncomingMessageQueue_throws now) hc'
              refine ⟨he, .inr ⟨?_, hp⟩⟩
              show (c.isOpen && (false || _)) = _
              rw [hflag, Bool.false_or, Bool.and_false]

-- ===================================================== the write handlers

/-- The fields no write handler touches. -/
def apart (c : Connection) : Connection :=
  { c with mMessagesOut := [], mLastSentMessageTime := 0
           mSentPacketCount := 0, isOpen := false, writes := []
           handed := [], escaped := none }

/-- What does not depend on those fields is left alone with the rest. -/
theorem of_apart {α : Type} (f : Connection → α) (hf : ∀ c, f c.apart = f c)
    (h : c'.apart = c.apart) : f c' = f c := by
  rw [← hf c', h, hf c]

/-- Only the queue, the writes and the socket change, and the socket is
not opened. -/
def writeFrame : Frame Connection where
  rel c c' := c'.apart = c.apart ∧ c'.escaped = c.escaped
    ∧ (c'.isOpen = true → c.isOpen = true)
  refl _ := ⟨rfl, rfl, id⟩
  trans h h' := ⟨h'.1.trans h.1, h'.2.1.trans h.2.1, h.2.2 ∘ h'.2.2⟩

/-- Nor is it closed. -/
def steadyFrame : Frame Connection where
  rel c c' := c'.apart = c.apart ∧ c'.escaped = c.escaped
    ∧ c'.isOpen = c.isOpen
  refl _ := ⟨rfl, rfl, rfl⟩
  trans h h' := ⟨h'.1.trans h.1, h'.2.1.trans h.2.1, h'.2.2.trans h.2.2⟩

/-- What keeps the socket as it is does not open it. -/
theorem keeps_of_steady {m : ConnM PUnit} (hm : Keeps steadyFrame m) :
    Keeps writeFrame m := by
  apply hm.mono
  intro c c' h
  exact ⟨h.1, h.2.1, fun hopen => h.2.2 ▸ hopen⟩

theorem keeps_steadyFrame {f : Connection → Connection}
    (h : ∀ c, (f c).apart = c.apart ∧ (f c).escaped = c.escaped)
    (hopen : ∀ c, (f c).isOpen = c.isOpen) :
    Keeps steadyFrame (modify f : ConnM PUnit) :=
  keeps_modify fun c => ⟨(h c).1, (h c).2, hopen c⟩

theorem peekFront_keeps : Keeps steadyFrame peekFront := by
  refine keeps_get.bind fun c => ?_
  split
  · exact keeps_throw _
  · exact keeps_pure _

theorem popFront_keeps : Keeps steadyFrame popFront := by
  refine keeps_get.bind fun c => ?_
  split
  · exact keeps_throw _
  · exact keeps_steadyFrame (fun _ => ⟨rfl, rfl⟩) fun _ => rfl

theorem close_keeps : Keeps writeFrame close :=
  keeps_modify fun _ => ⟨rfl, rfl, nofun⟩

theorem writeHeader_keeps : Keeps steadyFrame (writeHeader host) := by
  have hrest : Keeps steadyFrame (do
      let front ← peekFront
      asyncWrite .header (front.header.toMemory host) : ConnM PUnit) :=
    peekFront_keeps.bind fun _ _ => ⟨rfl, rfl, rfl⟩
  unfold writeHeader
  dsimp only
  exact keeps_get.bind fun _ => .check hrest

theorem messageWritten_keeps (now : TimePoint) :
    Keeps steadyFrame (messageWritten host now) := by
  unfold messageWritten
  refine popFront_keeps.bind fun _ => .bind (keeps_steadyFrame ?_ ?_)
    fun _ => ?_
  · intro _
    exact ⟨rfl, rfl⟩
  · intro _
    rfl
  · exact keeps_get.bind fun _ => .ite writeHeader_keeps (keeps_pure _)

theorem queueMessage_keeps (info : PacketSendInfo) :
    Keeps steadyFrame (queueMessage host info) := by
  unfold queueMessage
  refine keeps_get.bind fun _ => .bind (keeps_steadyFrame ?_ ?_) fun _ => ?_
  · intro _
    exact ⟨rfl, rfl⟩
  · intro _
    rfl
  · exact .ite writeHeader_keeps (keeps_pure _)

/-- A write that succeeded does not touch the socket. -/
theorem writeSucceeded_keeps (op : WriteOp) (now : TimePoint) :
    Keeps steadyFrame (writeCompleted host op true now) := by
  cases op with
  | header =>
      refine peekFront_keeps.bind fun _ => .ite ?_ ?_
      · exact peekFront_keeps.bind fun _ _ => ⟨rfl, rfl, rfl⟩
      · exact messageWritten_keeps now
  | body => exact messageWritten_keeps now

theorem writeCompleted_keeps (op : WriteOp) (ok : Bool) (now : TimePoint) :
    Keeps writeFrame (writeCompleted host op ok now) := by
  cases ok with
  | true => exact keeps_of_steady (writeSucceeded_keeps op now)
  | false =>
      cases op with
      | header => exact close_keeps
      | body => exact close_keeps

/-- Whatever a posted handler does, it leaves the other fields alone. -/
theorem runPosted_keeps (handler : Handler) :
    Keeps writeFrame (runPosted host handler) := by
  cases handler with
  | queueMessage info => exact keeps_of_steady (queueMessage_keeps info)
  | close => exact close_keeps

theorem runHandler_apart {kind : HandlerKind} {m : ConnM PUnit}
    (hm : Keeps writeFrame m) (c : Connection) :
    (runHandler kind m c).apart = c.apart
      ∧ ((runHandler kind m c).isOpen = true → c.isOpen = true) := by
  obtain ⟨hapart, -, hopen⟩ := hm c
  rcases runHandler_cases kind m c with ⟨h, -⟩ | ⟨e, -, h⟩
  · rw [h]
    exact ⟨hapart, hopen⟩
  · rw [h]
    exact ⟨hapart, hopen⟩

-- =========================================================== the socket

/-- A connect completion, as against every other event. -/
def isConnect : Action → Bool
  | .connectDone _ _ => true
  | _ => false

/-- Is the socket open, is a connect in progress: what `IsConnected()`
and `IsConnecting()` look at. -/
def line (c : Connection) : Bool × Bool := (c.isOpen, c.mIsConnecting)

theorem runHandler_line (kind : HandlerKind) (m : ConnM PUnit)
    (c : Connection) : (runHandler kind m c).line = (after m c).line := by
  rcases runHandler_cases kind m c with ⟨h, -⟩ | ⟨e, -, h⟩
  · rw [h]
  · rw [h]
    rfl

/-- A handler in the frame leaves the line alone. -/
theorem steady_line {kind : HandlerKind} {m : ConnM PUnit}
    (hm : Keeps steadyFrame m) (c : Connection) :
    (runHandler kind m c).line = c.line := by
  obtain ⟨hapart, -, hopen⟩ := hm c
  have hconnecting := of_apart mIsConnecting (fun _ => rfl) hapart
  rw [runHandler_line, line, line, hopen, hconnecting]

/-- A handler that closes the socket leaves it closed. -/
theorem close_line (kind : HandlerKind) (c : Connection) :
    (runHandler kind close c).line = (false, c.mIsConnecting) := rfl

theorem remembered_line (info : PacketSendInfo) :
    (remembered host ids c info).line = c.line := by
  unfold remembered
  split
  · rfl
  · rfl

/-- Only a connect completion and a closing event change the line. -/
theorem steady_step {a : Action} (ha : isConnect a = false)
    (hclose : closes c a = false) (h : step host ids a c = some c') :
    c'.line = c.line := by
  -- where the event would have closed the socket, it was closed
  have hshut {b : Bool} (hb : (c.isOpen && b) = false) (htrue : b = true)
      (hc' : c'.line = (false, c.mIsConnecting)) : c'.line = c.line := by
    rw [htrue, Bool.and_true] at hb
    rw [hc', line, hb]
  cases a with
  | send packet =>
      obtain ⟨call, -, -, -, rfl⟩ := of_step_send h
      exact remembered_line call.info
  | sendBegin packet =>
      obtain ⟨call, -, -, -, rfl⟩ := of_step_sendBegin h
      exact remembered_line call.info
  | sendEnd i =>
      obtain ⟨call, -, rfl⟩ := of_step_sendEnd h
      rfl
  | disconnect =>
      rcases of_step_disconnect h with rfl | rfl
      · rfl
      · rfl
  | posted =>
      obtain ⟨handler, rest, hposted, hc'⟩ := of_step_posted h
      cases handler with
      | queueMessage info =>
          rw [hc']
          exact steady_line (queueMessage_keeps info) { c with posted := rest }
      | close =>
          have hhead : (c.posted.head? == some .close) = true := by
            rw [hposted]
            rfl
          apply hshut hclose hhead
          rw [hc']
          exact close_line .posted { c with posted := rest }
  | writeDone op ok now =>
      obtain ⟨-, hc'⟩ := of_step_writeDone h
      cases ok with
      | true =>
          rw [hc']
          exact steady_line (writeSucceeded_keeps op now) _
      | false =>
          apply hshut hclose rfl
          rw [hc']
          cases op with
          | header => exact close_line .write _
          | body => exact close_line .write _
  | readDone op ok now =>
      rcases (readDone_cases h).2 with ⟨hclosing, -⟩ | ⟨-, new, hp⟩
      · rw [hclose] at hclosing
        cases hclosing
      · rw [line, line, hp.isOpen, hp.isConnecting]
  | connectDone ok leftOpen => cases ha

/-- The socket is neither opened nor closed. -/
def openFrame : Frame Connection where
  rel c c' := c'.isOpen = c.isOpen
  refl _ := rfl
  trans h h' := h'.trans h

theorem keeps_of_sends {m : ConnM PUnit} (hm : Keeps (sendFrame host) m) :
    Keeps openFrame m := by
  apply hm.mono
  rintro c c' ⟨⟨new, hp⟩, -⟩
  exact hp.isOpen

theorem connectCompleted_keeps (ok : Bool) :
    Keeps openFrame (connectCompleted host ids ok) := by
  have hread : Keeps openFrame readHeader := fun _ => rfl
  unfold connectCompleted
  refine .bind (keeps_modify fun _ => rfl) fun _ => .ite ?_ (keeps_pure _)
  refine keeps_get.bind fun c => ?_
  split
  case h_1 packet hpacket =>
    exact (keeps_of_sends (send_keeps packet)).bind fun _ => hread
  case h_2 => exact hread

/-- A connect completion leaves the socket as the connect did. -/
theorem connectDone_isOpen {ok leftOpen : Bool}
    (h : step host ids (.connectDone ok leftOpen) c = some c') :
    c'.isOpen = (ok || leftOpen) := by
  obtain ⟨-, hc'⟩ := of_step_connectDone h
  have hline := runHandler_line .connect (connectCompleted host ids ok)
    { c with connecting := false, isOpen := ok || leftOpen }
  rw [← hc'] at hline
  have hopen : Keeps openFrame (connectCompleted host ids ok) :=
    connectCompleted_keeps ok
  exact (congrArg Prod.fst hline).trans (hopen _)

end Connection

end AWEnginePacket
