/-
Compressed messages on the server.

The read handlers test the `Compressed` flag where a body ends and close
the connection. A message without a body does not come that way: its
header alone sends it to the queue, flag and all, and there `Update()`
throws over it. So what a client sends raises that exception if and only
if its stream delivers a frame with the flag, which is one without a
body.
-/
import AWEnginePacket.Model.Update
import AWEnginePacket.Proofs.Delivery

namespace AWEnginePacket

open Endian (ByteOrder)
open Effect

-- =============================================================== Update()

namespace PacketServer

variable {σ α : Type} {callbacks : UpdateCallbacks σ}

/-- No message of the queue has the flag. -/
def NoneCompressed (s : UpdateState σ) : Prop :=
  ∀ msg ∈ s.mMessageInQueue,
    PacketFlags.test msg.second.header.flags PacketFlags.compressed = false

/-- The callbacks have exceptions of their own. -/
structure OwnFaults (callbacks : UpdateCallbacks σ) : Prop where
  onMessage : ∀ f, callbacks.onMessage = some f →
    ∀ owner info, Throws (· ≠ compressionFault) (f owner info)
  parsePacket : ∀ info, Throws (· ≠ compressionFault)
    (callbacks.parsePacket info)
  onPacket : ∀ f, callbacks.onPacket = some f →
    ∀ owner packet, Throws (· ≠ compressionFault) (f owner packet)

/-- A part of `Update()` that keeps the queue free of the flag and does
not throw over it. -/
abbrev Unflagged (m : UpdateM σ α) : Prop :=
  Maintains NoneCompressed (· ≠ compressionFault) m

theorem unflagged_callUser {m : EStateM Fault σ α}
    (h : Throws (· ≠ compressionFault) m) : Unflagged (callUser m) := by
  intro s hs
  have hcall : (callUser m).run s = callUser m s := rfl
  rw [hcall, callUser]
  cases hrun : m.run s.user with
  | ok a user =>
      refine ⟨fun a' s' h' => ?_, nofun⟩
      cases h'
      exact hs
  | error e user =>
      refine ⟨nofun, fun e' s' h' => ?_⟩
      cases h'
      exact ⟨hs, h _ _ _ hrun⟩

/-- `OnMessage()` is called with the message, or is not there. -/
theorem messageArrived_cases (callbacks : UpdateCallbacks σ)
    (msg : OwnedMessage) :
    (callbacks.onMessage = none
        ∧ messageArrived callbacks msg = pure msg.second)
      ∨ ∃ f, callbacks.onMessage = some f
        ∧ messageArrived callbacks msg
          = callUser (f msg.first msg.second) := by
  unfold messageArrived
  cases hf : callbacks.onMessage with
  | none => exact .inl ⟨rfl, rfl⟩
  | some f => exact .inr ⟨f, rfl, rfl⟩

/-- `OnPacket()` is called with the packet, or nothing is done. -/
theorem packetArrived_cases (callbacks : UpdateCallbacks σ)
    (owner : Option Nat) (packet : Option IPacket) :
    packetArrived callbacks owner packet = pure ⟨⟩
      ∨ ∃ f p, callbacks.onPacket = some f
        ∧ packetArrived callbacks owner packet
          = callUser (f owner p) := by
  unfold packetArrived
  cases packet with
  | none => exact .inl rfl
  | some p =>
      cases hf : callbacks.onPacket with
      | none => exact .inl rfl
      | some f => exact .inr ⟨f, p, rfl, rfl⟩

theorem unflagged_messageArrived (hown : OwnFaults callbacks)
    (msg : OwnedMessage) : Unflagged (messageArrived callbacks msg) := by
  rcases messageArrived_cases callbacks msg with ⟨-, h⟩ | ⟨f, hf, h⟩
  · rw [h]
    exact maintains_pure msg.second
  · rw [h]
    exact unflagged_callUser (hown.onMessage f hf _ _)

theorem unflagged_packetArrived (hown : OwnFaults callbacks)
    (owner : Option Nat) (packet : Option IPacket) :
    Unflagged (packetArrived callbacks owner packet) := by
  rcases packetArrived_cases callbacks owner packet with h | ⟨f, p, hf, h⟩
  · rw [h]
    exact maintains_pure PUnit.unit
  · rw [h]
    exact unflagged_callUser (hown.onPacket f hf _ _)

theorem run_popMessage_nil {s : UpdateState σ}
    (h : s.mMessageInQueue = []) :
    popMessage.run s = .error (.undefined "front() of an empty deque") s := by
  unfold popMessage
  rw [EStateM.run_bind, EStateM.run_get]
  simp only [h]
  rfl

theorem run_popMessage_cons {s : UpdateState σ} {msg : OwnedMessage}
    {rest : List OwnedMessage} (h : s.mMessageInQueue = msg :: rest) :
    popMessage.run s = .ok msg { s with mMessageInQueue := rest } := by
  unfold popMessage
  rw [EStateM.run_bind, EStateM.run_get]
  simp only [h]
  rfl

theorem unflagged_updateOne (hown : OwnFaults callbacks) :
    Unflagged (updateOne callbacks) := by
  intro s hs
  unfold updateOne
  cases hqueue : s.mMessageInQueue with
  | nil =>
      rw [run_bind_of_error (run_popMessage_nil hqueue)]
      refine ⟨nofun, fun e s' h => ?_⟩
      cases h
      exact ⟨hs, by simp [compressionFault]⟩
  | cons msg rest =>
      have hflag := hs msg (by rw [hqueue]; exact List.mem_cons_self ..)
      have hrest : NoneCompressed { s with mMessageInQueue := rest } := by
        intro m hm
        exact hs m (by rw [hqueue]; exact List.mem_cons_of_mem _ hm)
      rw [run_bind_of_ok (run_popMessage_cons hqueue), hflag,
        if_neg Bool.false_ne_true]
      have hhand := (unflagged_messageArrived hown msg).bind fun info =>
        (unflagged_callUser (hown.parsePacket info)).bind
          (unflagged_packetArrived hown msg.first)
      exact hhand _ hrest

theorem unflagged_updateLoop (hown : OwnFaults callbacks) (n : UInt64)
    (rounds messageIndex : Nat) :
    Unflagged (updateLoop callbacks n rounds messageIndex) := by
  induction rounds generalizing messageIndex with
  | zero => exact maintains_pure messageIndex
  | succ rounds ih =>
      unfold updateLoop
      refine maintains_get.bind fun s => .ite ?_ (maintains_pure _)
      exact (unflagged_updateOne hown).bind fun _ => ih (messageIndex + 1)

/-- `Update()` does not throw over compression unless a message of the
queue has the flag. -/
theorem unflagged_update (hown : OwnFaults callbacks) (n : UInt64) :
    Unflagged (update callbacks n) := by
  unfold update
  refine .ite (maintains_pure 0) ?_
  exact maintains_get.bind fun s => unflagged_updateLoop hown n _ 0

/-- A message with the flag at the front of the queue is thrown over. -/
theorem update_throws {s : UpdateState σ} {msg : OwnedMessage}
    {rest : List OwnedMessage} {n : UInt64} (hn : n ≠ 0)
    (hqueue : s.mMessageInQueue = msg :: rest)
    (hflag : PacketFlags.test msg.second.header.flags
      PacketFlags.compressed = true) :
    (update callbacks n).run s
      = .error compressionFault { s with mMessageInQueue := rest } := by
  have hpos : 0 < n.toNat := by
    rw [Nat.pos_iff_ne_zero]
    intro hzero
    exact hn (UInt64.toNat_inj.mp hzero)
  have hone : (updateOne callbacks).run s
      = .error compressionFault { s with mMessageInQueue := rest } := by
    unfold updateOne
    rw [run_bind_of_ok (run_popMessage_cons hqueue), hflag, if_pos rfl]
    rfl
  unfold update
  rw [if_neg hn, EStateM.run_bind, EStateM.run_get]
  simp only [hqueue, List.length_cons]
  unfold updateLoop
  rw [EStateM.run_bind, EStateM.run_get]
  simp only [hqueue, List.isEmpty_cons, Bool.not_false, Bool.true_and,
    decide_eq_true_eq]
  rw [if_pos hpos, run_bind_of_error hone]

end PacketServer

-- ================================================= what a client sends

namespace Connection

variable {host : ByteOrder} {ids : PacketIDs} {stream : List UInt8}

/-- The frames in front of the first that is not delivered. -/
def deliverable (ids : PacketIDs) (stream : List UInt8) : List WireFrame :=
  (frames.split stream).1.takeWhile fun f => !endsReading ids .toClient f

/-- The flag on a frame. -/
def compressed (f : WireFrame) : Bool :=
  PacketFlags.test f.1.flags PacketFlags.compressed

/-- What has been delivered is the beginning of what can be. -/
theorem Reader.prefix_deliverable {c : Connection} {fs : List WireFrame}
    {rest : List UInt8} (hr : Reader ids .toClient stream c fs rest) :
    fs <+: deliverable ids stream := by
  have hall : ∀ f ∈ fs, (!endsReading ids .toClient f) = true := by
    intro f hf
    have hv := hr.delivered f hf
    rw [hr.direction] at hv
    rw [endsReading, hv]
    rfl
  rw [deliverable, hr.cursor.frames, List.takeWhile_append_of_pos hall]
  exact List.prefix_append fs _

/-- Of two kinds of element, the first of either is of the second kind
if one of that kind stands in front of all of the first. -/
private theorem find?_of_mem_takeWhile {α : Type} {q r : α → Bool}
    {l : List α} {x : α} (hx : x ∈ l.takeWhile fun y => !q y)
    (hr : r x = true) :
    ∃ y, l.find? (fun z => q z || r z) = some y
      ∧ q y = false ∧ r y = true := by
  induction l with
  | nil => cases hx
  | cons a l ih =>
      rw [List.takeWhile_cons] at hx
      cases hq : q a with
      | true =>
          rw [hq] at hx
          cases hx
      | false =>
          rw [hq] at hx
          cases hra : r a with
          | true =>
              refine ⟨a, ?_, hq, hra⟩
              rw [List.find?_cons, hq, hra]
              rfl
          | false =>
              rcases List.mem_cons.mp hx with rfl | hx
              · rw [hra] at hr
                cases hr
              · obtain ⟨y, hfind, hy⟩ := ih hx
                refine ⟨y, ?_, hy⟩
                rw [List.find?_cons, hq, hra]
                exact hfind

/-- A frame with the flag that is delivered gets into the queue. -/
theorem compressed_pushed {c₀ : Connection} {f : WireFrame}
    (h₀ : Listening stream c₀) (hdir : c₀.mDirection = .toClient)
    (hf : f ∈ deliverable ids stream) (hflag : compressed f = true) :
    ∃ acts c, Lts.run (step host ids) c₀ acts = some c
      ∧ ∃ m ∈ c.mMessagesIn,
        PacketFlags.test m.second.header.flags PacketFlags.compressed
          = true := by
  obtain ⟨g, hfind, hends, hg⟩ := find?_of_mem_takeWhile hf hflag
  obtain ⟨acts, c₁, c, rest', hrun, hp, hdir₁, hheader, ho⟩ :=
    @reads_first host ids _ _ g _ h₀.poised hdir
      (fun f hf => deliver_of_not_endsReading (Bool.or_eq_false_iff.mp hf).1)
      hfind
  have hv : verdict ids c₁.mDirection g = .deliver := by
    rw [hdir₁]
    exact deliver_of_not_endsReading hends
  refine ⟨acts, c, hrun, ?_⟩
  cases ho with
  | delivered _ hrel =>
      obtain ⟨hside, -, -⟩ := hrel
      simp only [readSide, Prod.mk.injEq] at hside
      obtain ⟨-, -, -, hmsgs, -⟩ := hside
      refine ⟨⟨c₁.owner, c₁.mWipInMessage⟩, ?_, ?_⟩
      · rw [hmsgs, pushed]
        exact List.mem_append_right _ (List.mem_singleton_self _)
      · show PacketFlags.test c₁.mWipInMessage.header.flags _ = true
        rw [hheader]
        exact hg
  | closed hv' => rw [hv] at hv'; cases hv'
  | thrown e c₂ hv' => rw [hv] at hv'; cases hv' hdir₁
  | stalled hv' => rw [hv] at hv'; cases hv'

/-- A client never gets a message with the flag into the server's queue,
and so never makes `Update()` throw over it, if and only if no frame of
its stream that is delivered has the flag. -/
theorem never_compressed_iff (host : ByteOrder) (ids : PacketIDs)
    (self : Nat) (stream : List UInt8) (now : TimePoint) :
    (∀ acts c,
        Lts.run (step host ids) (started self stream now) acts = some c →
        (∀ m ∈ c.mMessagesIn, PacketFlags.test m.second.header.flags
            PacketFlags.compressed = false)
          ∧ ∀ (queue : List OwnedMessage) (σ : Type) (user : σ)
              (callbacks : UpdateCallbacks σ) (n : UInt64) e s',
              (∀ m ∈ queue, m ∈ c.mMessagesIn) →
              PacketServer.OwnFaults callbacks →
              (PacketServer.update callbacks n).run ⟨queue, user⟩
                = .error e s' → e ≠ PacketServer.compressionFault)
      ↔ ∀ f ∈ deliverable ids stream, compressed f = false := by
  have h₀ := listening_started self stream now
  constructor
  · intro h f hf
    cases hflag : compressed f with
    | false => rfl
    | true =>
        obtain ⟨acts, c, hrun, m, hm, hm'⟩ :=
          @compressed_pushed host ids stream _ f h₀ rfl hf hflag
        rw [(h acts c hrun).1 m hm] at hm'
        cases hm'
  · intro h acts c hrun
    obtain ⟨fs, rest, hr⟩ := reader_run h₀ hrun
    have hnone (m : OwnedMessage) (hm : m ∈ c.mMessagesIn) :
        PacketFlags.test m.second.header.flags PacketFlags.compressed
          = false := by
      rw [hr.messages] at hm
      have hmap := List.mem_map_of_mem (f := (·.second.header)) hm
      rw [Inbox.headers_of] at hmap
      obtain ⟨f, hf, hfm⟩ := List.mem_map.mp hmap
      have hflag := h f (hr.prefix_deliverable.subset hf)
      rw [compressed, hfm] at hflag
      exact hflag
    refine ⟨hnone, ?_⟩
    intro queue σ user callbacks n e s' hqueue hown herror
    have hs : PacketServer.NoneCompressed
        (⟨queue, user⟩ : UpdateState σ) := fun m hm => hnone m (hqueue m hm)
    exact ((PacketServer.unflagged_update hown n _ hs).2 e s' herror).2

/-- A message that is nothing but a header with the flag: it is queued,
and `Update()` throws over it. -/
theorem update_throws_over_header :
    ∃ c, Lts.run (step .little ⟨1, 2⟩) (started 0 [5, 1, 0, 0] 0)
        [.readDone .header true 1] = some c
      ∧ c.isOpen = true
      ∧ c.mMessagesIn = [⟨some 0, ⟨⟨5, PacketFlags.compressed, 0⟩, {}⟩⟩]
      ∧ (PacketServer.update ⟨none, fun _ => pure none, none⟩ 1).run
          ⟨c.mMessagesIn, ()⟩
        = .error PacketServer.compressionFault ⟨[], ()⟩ :=
  ⟨_, rfl, rfl, rfl, rfl⟩

end Connection

end AWEnginePacket
