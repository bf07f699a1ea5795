/-
The end of a message's reading.

`verdict` classifies a received frame by what the read handlers do once
it is complete: deliver it and read on, close the socket, throw, or
neither deliver nor read on. `Outcome` is the same classification on
the connection, and `outcome_of_complete` proves that they agree. Only
on a server's connection is it exact: a client's echo of a ping may
also throw, when the socket was closed meanwhile.

`Inbox` is what delivered frames come to. All messages are assembled in
one `m_WipInMessage`, so a frame without a body is delivered with the
body of the last one that had any.
-/
import AWEnginePacket.Proofs.Stream
import Mathlib.Data.List.Induction

namespace AWEnginePacket

open Endian (ByteOrder)
open Effect

/-- A received frame: header and body. -/
abbrev WireFrame := PacketHeader × List UInt8

-- ============================================================= verdicts

/-- What the end of a frame's reading does with it. -/
inductive Verdict
  /-- Push the message and read the next header. -/
  | deliver
  /-- Close the socket. -/
  | close
  /-- Throw. -/
  | fault
  /-- Neither push nor read on. -/
  | stall
deriving DecidableEq, Repr

/-- The verdict on a frame at one end. -/
def verdict (ids : PacketIDs) (direction : PacketDirection) (f : WireFrame) :
    Verdict :=
  if f.1.size ≠ 0 ∧ PacketFlags.test f.1.flags PacketFlags.compressed then
    .close
  else if f.1.id = ids.keepAlive
      ∧ (f.1.flags ≠ PacketFlags.none ∨ f.1.size ≠ 8) then .fault
  else if f.1.id = ids.init ∧ direction = .toClient then
    if f.1.flags ≠ PacketFlags.none ∨ f.1.size ≠ 17 then .fault
    else if f.2.getD 16 0 = NextInitStep.serverInfo
        ∨ f.2.getD 16 0 = NextInitStep.join then .stall
    else .fault
  else .deliver

/-- The body of the message being assembled, and the messages pushed. -/
structure Inbox where
  body : List UInt8 := []
  messages : List OwnedMessage := []
deriving DecidableEq, Repr

namespace Inbox

/-- One more frame is delivered. -/
def take (owner : Option Nat) (i : Inbox) (f : WireFrame) : Inbox :=
  let body := if f.2 = [] then i.body else f.2
  ⟨body, i.messages ++ [⟨owner, ⟨f.1, ⟨body, 0⟩⟩⟩]⟩

/-- What the frames come to, in order. -/
def of (owner : Option Nat) (fs : List WireFrame) : Inbox :=
  fs.foldl (take owner) {}

variable (owner : Option Nat)

theorem of_append_singleton (fs : List WireFrame) (f : WireFrame) :
    of owner (fs ++ [f]) = (of owner fs).take owner f := by
  rw [of, List.foldl_append]
  rfl

/-- The body left in the message is empty only if every frame's was. -/
theorem body_eq_nil_iff (fs : List WireFrame) :
    (of owner fs).body = [] ↔ ∀ f ∈ fs, f.2 = [] := by
  induction fs using List.reverseRecOn with
  | nil => simp [of]
  | append_singleton fs f ih =>
      rw [of_append_singleton]
      simp only [take]
      by_cases hf : f.2 = []
      · rw [if_pos hf, ih]
        constructor
        · intro h g hg
          rcases List.mem_append.mp hg with hg | hg
          · exact h g hg
          · rw [List.mem_singleton.mp hg]
            exact hf
        · intro h g hg
          exact h g (List.mem_append_left _ hg)
      · rw [if_neg hf]
        constructor
        · intro h
          exact absurd h hf
        · intro h
          exact absurd (h f (List.mem_append_right _ (List.mem_singleton_self f)))
            hf

/-- Every frame becomes one message, under its own header. -/
theorem headers_of (fs : List WireFrame) :
    (of owner fs).messages.map (·.second.header) = fs.map (·.1) := by
  induction fs using List.reverseRecOn with
  | nil => rfl
  | append_singleton fs f ih =>
      rw [of_append_singleton]
      simp only [take, List.map_append, ih]
      rfl

/-- The message of the `k`-th frame has that frame's header, and the
body left over once the frame was taken. -/
theorem getElem?_of {fs : List WireFrame} {k : Nat} {m : OwnedMessage}
    (h : (of owner fs).messages[k]? = some m) :
    ∃ f, fs[k]? = some f
      ∧ m = ⟨owner, ⟨f.1, ⟨(of owner (fs.take (k + 1))).body, 0⟩⟩⟩ := by
  induction fs using List.reverseRecOn generalizing m with
  | nil => simp [of] at h
  | append_singleton fs f ih =>
      have hlen : (of owner fs).messages.length = fs.length := by
        have := congrArg List.length (headers_of owner fs)
        rwa [List.length_map, List.length_map] at this
      rw [of_append_singleton] at h
      simp only [take] at h
      by_cases hk : k < fs.length
      · rw [List.getElem?_append_left (by rw [hlen]; exact hk)] at h
        obtain ⟨g, hg, hm⟩ := ih h
        refine ⟨g, ?_, ?_⟩
        · rw [List.getElem?_append_left hk]
          exact hg
        · rw [List.take_append_of_le_length (by omega)]
          exact hm
      · rw [List.getElem?_append_right (by rw [hlen]; omega), hlen] at h
        have hzero : k - fs.length = 0 := by
          by_contra hne
          rw [List.getElem?_eq_none (by simp; omega)] at h
          cases h
        rw [hzero, List.getElem?_cons_zero, Option.some.injEq] at h
        refine ⟨f, ?_, ?_⟩
        · rw [List.getElem?_append_right (by omega), hzero]
          rfl
        · have hall : (fs ++ [f]).take (k + 1) = fs ++ [f] := by
            apply List.take_of_length_le
            simp
            omega
          rw [hall, of_append_singleton, ← h]
          rfl

end Inbox

namespace Connection

variable {host : ByteOrder} {ids : PacketIDs} {c c' : Connection}
  {now : TimePoint} {msg : PacketSendInfo}

-- =========================================================== the frame

/-- The fields the read handlers work on. -/
def readSide (c : Connection) :=
  (c.reads, c.incoming, c.mWipInMessage, c.mMessagesIn, c.mDirection,
    c.self, c.mIsConnecting, c.connecting)

/-- Nothing happens to the reading side and the socket. -/
def readFrame : Frame Connection where
  rel c c' := c'.readSide = c.readSide ∧ c'.isOpen = c.isOpen
    ∧ c'.escaped = c.escaped
  refl _ := ⟨rfl, rfl, rfl⟩
  trans h h' := ⟨h'.1.trans h.1, h'.2.1.trans h.2.1, h'.2.2.trans h.2.2⟩

theorem remembered_readFrame (c : Connection) (info : PacketSendInfo) :
    readFrame.rel c (remembered host ids c info) := by
  unfold remembered
  split
  · exact ⟨rfl, rfl, rfl⟩
  · exact readFrame.refl c

theorem prepare_keeps_reading (packet : IPacket) :
    Keeps readFrame (prepare host ids packet) := by
  intro c
  cases hrun : (prepare host ids packet).run c with
  | ok call c' =>
      rw [after_of_ok hrun]
      obtain ⟨-, -, -, rfl⟩ := of_prepare_ok host ids hrun
      exact remembered_readFrame c call.info
  | error e c' =>
      rw [after_of_error hrun, of_prepare_error host ids hrun]
      exact readFrame.refl c

theorem sendBegin_keeps_reading (packet : IPacket) :
    Keeps readFrame (sendBegin host ids packet) :=
  (prepare_keeps_reading packet).bind fun _ _ => ⟨rfl, rfl, rfl⟩

theorem send_keeps_reading (packet : IPacket) :
    Keeps readFrame (send host ids packet) :=
  (prepare_keeps_reading packet).bind fun _ _ => ⟨rfl, rfl, rfl⟩

theorem keepAliveReceived_keeps_reading (msg : PacketSendInfo)
    (now : TimePoint) :
    Keeps readFrame (keepAliveReceived host ids msg now) := by
  refine keepAliveReceived_keeps ?_ ?_ (fun _ => send_keeps_reading _) _ _
  · intro c t
    exact ⟨rfl, rfl, rfl⟩
  · intro o _ c
    exact ⟨rfl, rfl, rfl⟩

-- ==================================================== the special IDs

/-- The server's verdict on the payload of a KeepAlive. -/
def judged (c : Connection) (payload : UInt64) (now : TimePoint) :
    Connection :=
  if payload = c.mLastKeepAliveValue then
    { c with mLastKeepAlive := now, hist := c.hist ++ [.refreshed payload now] }
  else { c with mLastKeepAlive := 0, hist := c.hist ++ [.dropped payload] }

theorem keepAliveReceived_fault (h : msg.header.flags ≠ PacketFlags.none
      ∨ msg.header.size ≠ 8) :
    ∃ e, (keepAliveReceived host ids msg now).run c = .error e c := by
  unfold keepAliveReceived
  dsimp only
  by_cases hflags : msg.header.flags = PacketFlags.none
  · have hsize := h.resolve_left (not_not_intro hflags)
    rw [if_neg (not_not_intro hflags), if_pos hsize]
    exact ⟨_, rfl⟩
  · rw [if_pos hflags]
    exact ⟨_, rfl⟩

/-- A well-formed KeepAlive at a server. -/
theorem keepAliveReceived_server (hdir : c.mDirection = .toClient)
    (hflags : msg.header.flags = PacketFlags.none)
    (hsize : msg.header.size = 8) :
    (keepAliveReceived host ids msg now).run c
      = .ok ⟨⟩ (judged c (loadUInt64 host (msg.body.bytesFrom 8)) now) := by
  have hnot : c.mDirection ≠ .toServer := by
    rw [hdir]
    exact PacketDirection.noConfusion
  unfold keepAliveReceived
  dsimp only
  rw [if_neg (not_not_intro hflags), if_neg (not_not_intro hsize),
    EStateM.run_bind, EStateM.run_get]
  dsimp only
  rw [if_neg hnot, EStateM.run_bind, EStateM.run_get]
  dsimp only
  rw [if_pos hdir, EStateM.run_bind, EStateM.run_get]
  dsimp only
  unfold judged
  by_cases heq : loadUInt64 host (msg.body.bytesFrom 8) = c.mLastKeepAliveValue
  · rw [if_pos heq, if_pos heq]
    rfl
  · rw [if_neg heq, if_neg heq]
    rfl

/-- An Init that the checks let through. -/
theorem initReceived_ok {bs : List UInt8} (hbody : msg.body = ⟨bs, 0⟩)
    (hflags : msg.header.flags = PacketFlags.none)
    (hsize : msg.header.size = 17) (hlen : bs.length = 17)
    (hnext : bs.getD 16 0 = NextInitStep.serverInfo
      ∨ bs.getD 16 0 = NextInitStep.join) :
    (initReceived host msg).run c = .ok ⟨⟩ c := by
  obtain ⟨p, rest, hparse, hp⟩ := Init.parse_of_length host hlen
  rw [← hp] at hnext
  have hknown : ¬(p.next ≠ NextInitStep.serverInfo
      ∧ p.next ≠ NextInitStep.join) := by
    intro h
    rcases hnext with h0 | h1
    · exact h.1 h0
    · exact h.2 h1
  unfold initReceived
  dsimp only
  rw [if_neg (not_not_intro hflags), if_neg (not_not_intro hsize), hbody,
    hparse]
  dsimp only
  rw [if_neg hknown]
  rfl

/-- Any other Init throws. -/
theorem initReceived_fault {bs : List UInt8} (hbody : msg.body = ⟨bs, 0⟩)
    (hlen : msg.header.size = 17 → bs.length = 17)
    (h : (msg.header.flags ≠ PacketFlags.none ∨ msg.header.size ≠ 17)
      ∨ bs.getD 16 0 ≠ NextInitStep.serverInfo
        ∧ bs.getD 16 0 ≠ NextInitStep.join) :
    ∃ e, (initReceived host msg).run c = .error e c := by
  unfold initReceived
  dsimp only
  by_cases hflags : msg.header.flags = PacketFlags.none
  · by_cases hsize : msg.header.size = 17
    · obtain ⟨p, rest, hparse, hp⟩ := Init.parse_of_length host (hlen hsize)
      have hnext := h.resolve_left fun hbad =>
        hbad.elim (fun hf => hf hflags) fun hs => hs hsize
      rw [← hp] at hnext
      rw [if_neg (not_not_intro hflags), if_neg (not_not_intro hsize), hbody,
        hparse]
      dsimp only
      rw [if_pos hnext]
      exact ⟨_, rfl⟩
    · rw [if_neg (not_not_intro hflags), if_pos hsize]
      exact ⟨_, rfl⟩
  · rw [if_pos hflags]
    exact ⟨_, rfl⟩

-- ============================================================ outcomes

/-- Whom a received message belongs to. -/
def owner (c : Connection) : Option Nat :=
  if c.mDirection = .toClient then some c.self else none

/-- The message is pushed, and the next header is awaited. -/
def pushed (c : Connection) : Connection :=
  { c with mMessagesIn := c.mMessagesIn ++ [⟨c.owner, c.mWipInMessage⟩]
           reads := c.reads ++ [.header] }

/-- How a handler that has completed the frame `f` leaves the
connection. -/
inductive Outcome (ids : PacketIDs) (f : WireFrame) (c c' : Connection) :
    Prop
  | delivered (hv : verdict ids c.mDirection f = .deliver)
      (h : readFrame.rel (pushed c) c')
  | closed (hv : verdict ids c.mDirection f = .close)
      (h : c' = { c with isOpen := false })
  | thrown (e : Fault) (c₁ : Connection)
      (hv : c.mDirection = .toClient → verdict ids c.mDirection f = .fault)
      (h : readFrame.rel c c₁)
      (hc' : c' = { c₁ with escaped := some (.read, e) })
  | stalled (hv : verdict ids c.mDirection f = .stall)
      (h : readFrame.rel c c')

variable {f : WireFrame} {b : List UInt8}

/-- The message being assembled is the frame `f`, but for a body left
over from before. -/
structure Complete (c : Connection) (f : WireFrame) (b : List UInt8) :
    Prop where
  header : c.mWipInMessage.header = f.1
  body : c.mWipInMessage.body = ⟨b, 0⟩
  own : f.2 ≠ [] → b = f.2
  length : f.2.length = f.1.size.toNat

/-- A frame with a size has its own body. -/
theorem Complete.length_eq (h : Complete c f b) {n : Nat} (hn : 0 < n)
    (hsize : f.1.size = UInt16.ofNat n) (hlt : n < 65536) :
    b.length = n := by
  have hlen := h.length
  rw [hsize, UInt16.toNat_ofNat', Nat.mod_eq_of_lt hlt] at hlen
  have hne : f.2 ≠ [] := by
    intro hnil
    rw [hnil, List.length_nil] at hlen
    omega
  rw [h.own hne, hlen]

variable (host ids) in
/-- The end of `AddToIncomingMessageQueue()`: the Init branch, or the
push. -/
def fileMessage (c : Connection) : ConnM PUnit :=
  if c.mWipInMessage.header.id = ids.init ∧ c.mDirection = .toClient then
    initReceived host c.mWipInMessage
  else do
    modify fun s =>
      { s with mMessagesIn := s.mMessagesIn ++ [⟨c.owner, c.mWipInMessage⟩] }
    readHeader

/-- The Init branch, from a state the KeepAlive branch left. -/
theorem outcome_initReceived {c₁ : Connection} (hc : Complete c f b)
    (hrel : readFrame.rel c c₁)
    (hv : verdict ids c.mDirection f
      = if f.1.flags ≠ PacketFlags.none ∨ f.1.size ≠ 17 then .fault
        else if f.2.getD 16 0 = NextInitStep.serverInfo
            ∨ f.2.getD 16 0 = NextInitStep.join then .stall
        else .fault) :
    Outcome ids f c
      (runHandler .read (initReceived host c.mWipInMessage) c₁) := by
  rw [← hc.header] at hv
  have hlen (hsize : c.mWipInMessage.header.size = 17) : b.length = 17 := by
    rw [hc.header] at hsize
    exact hc.length_eq (by decide) hsize (by decide)
  -- whatever the Init branch throws, it leaves the connection alone
  have hfault (hverdict : verdict ids c.mDirection f = .fault)
      (h : ∃ e, (initReceived host c.mWipInMessage).run c₁ = .error e c₁) :
      Outcome ids f c
        (runHandler .read (initReceived host c.mWipInMessage) c₁) := by
    obtain ⟨e, hrun⟩ := h
    refine .thrown e c₁ (fun _ => hverdict) hrel ?_
    rw [runHandler, hrun]
  by_cases hbad : c.mWipInMessage.header.flags ≠ PacketFlags.none
      ∨ c.mWipInMessage.header.size ≠ 17
  · rw [if_pos hbad] at hv
    exact hfault hv (initReceived_fault hc.body hlen (.inl hbad))
  · rw [if_neg hbad] at hv
    rw [not_or, not_not, not_not] at hbad
    obtain ⟨hflags, hsize⟩ := hbad
    have hb : b = f.2 := by
      refine hc.own fun hnil => ?_
      have h17 := hc.length
      rw [hnil, ← hc.header, hsize] at h17
      cases h17
    rw [← hb] at hv
    by_cases hnext : b.getD 16 0 = NextInitStep.serverInfo
        ∨ b.getD 16 0 = NextInitStep.join
    · rw [if_pos hnext] at hv
      refine .stalled hv ?_
      rw [runHandler,
        initReceived_ok hc.body hflags hsize (hlen hsize) hnext]
      exact hrel
    · rw [if_neg hnext] at hv
      rw [not_or] at hnext
      exact hfault hv (initReceived_fault hc.body hlen (.inr hnext))

/-- The end of the method, from a state the KeepAlive branch left. -/
theorem outcome_fileMessage {c₁ : Connection} (hc : Complete c f b)
    (hrel : readFrame.rel c c₁)
    (hplain : ¬(f.1.size ≠ 0
      ∧ PacketFlags.test f.1.flags PacketFlags.compressed = true))
    (hping : ¬(f.1.id = ids.keepAlive
      ∧ (f.1.flags ≠ PacketFlags.none ∨ f.1.size ≠ 8))) :
    Outcome ids f c (runHandler .read (fileMessage host ids c) c₁) := by
  have hv := verdict.eq_def ids c.mDirection f
  rw [if_neg hplain, if_neg hping] at hv
  by_cases hinit : f.1.id = ids.init ∧ c.mDirection = .toClient
  · rw [if_pos hinit] at hv
    rw [fileMessage, hc.header, if_pos hinit]
    exact outcome_initReceived hc hrel hv
  · rw [if_neg hinit] at hv
    rw [fileMessage, hc.header, if_neg hinit]
    refine .delivered hv ?_
    obtain ⟨hside, hopen, hesc⟩ := hrel
    simp only [readSide, Prod.mk.injEq] at hside
    obtain ⟨hreads, hin, hwip, hmsgs, hdir, hself, hconn, hconn'⟩ := hside
    refine ⟨?_, hopen, hesc⟩
    show (c₁.reads ++ [.header], c₁.incoming, c₁.mWipInMessage,
      c₁.mMessagesIn ++ _, c₁.mDirection, c₁.self, c₁.mIsConnecting,
      c₁.connecting) = _
    rw [hreads, hin, hwip, hmsgs, hdir, hself, hconn, hconn']
    rfl

/-- The method as its three parts. -/
theorem addToIncomingMessageQueue_run :
    (addToIncomingMessageQueue host ids now).run c
      = (if c.mWipInMessage.header.id = ids.keepAlive then
          keepAliveReceived host ids c.mWipInMessage now
            >>= fun _ => fileMessage host ids c
        else fileMessage host ids c).run
        { c with mLastReceivedMessageTime := now
                 mReceivedPacketCount := c.mReceivedPacketCount + 1 } := rfl

/-- The verdict on a frame is what becomes of it. -/
theorem outcome_of_complete (hc : Complete c f b)
    (hplain : ¬(f.1.size ≠ 0
      ∧ PacketFlags.test f.1.flags PacketFlags.compressed = true)) :
    Outcome ids f c
      (runHandler .read (addToIncomingMessageQueue host ids now) c) := by
  rw [runHandler_congr addToIncomingMessageQueue_run]
  obtain ⟨c₀, hc₀⟩ : ∃ c₀ : Connection,
      c₀ = { c with mLastReceivedMessageTime := now
                    mReceivedPacketCount := c.mReceivedPacketCount + 1 } :=
    ⟨_, rfl⟩
  have hrel₀ : readFrame.rel c c₀ := by
    rw [hc₀]
    exact ⟨rfl, rfl, rfl⟩
  have hdir₀ : c₀.mDirection = c.mDirection := by rw [hc₀]
  rw [← hc₀]
  by_cases hid : f.1.id = ids.keepAlive
  · rw [hc.header, if_pos hid]
    by_cases hbad : f.1.flags ≠ PacketFlags.none ∨ f.1.size ≠ 8
    · have hv : verdict ids c.mDirection f = .fault := by
        rw [verdict, if_neg hplain, if_pos ⟨hid, hbad⟩]
      rw [← hc.header] at hbad
      obtain ⟨e, hthrow⟩ :=
        @keepAliveReceived_fault host ids c₀ now c.mWipInMessage hbad
      refine .thrown e c₀ (fun _ => hv) hrel₀ ?_
      rw [runHandler, run_bind_of_error hthrow]
    · cases hk : (keepAliveReceived host ids c.mWipInMessage now).run c₀ with
      | ok u c₁ =>
          rw [runHandler_congr (run_bind_of_ok hk)]
          have hrel₁ := (keepAliveReceived_keeps_reading _ now).of_ok hk
          exact outcome_fileMessage hc (readFrame.trans hrel₀ hrel₁) hplain
            fun h => hbad h.2
      | error e c₁ =>
          -- a server has nothing to send here
          have hnot : c.mDirection ≠ .toClient := by
            intro hdir
            rw [← hc.header, not_or, not_not, not_not] at hbad
            rw [keepAliveReceived_server (hdir₀.trans hdir) hbad.1 hbad.2] at hk
            cases hk
          have hrel₁ := (keepAliveReceived_keeps_reading _ now).of_error hk
          refine .thrown e c₁ (fun hdir => absurd hdir hnot)
            (readFrame.trans hrel₀ hrel₁) ?_
          rw [runHandler, run_bind_of_error hk]
  · rw [hc.header, if_neg hid]
    exact outcome_fileMessage hc hrel₀ hplain fun h => hid h.1

end Connection

end AWEnginePacket
