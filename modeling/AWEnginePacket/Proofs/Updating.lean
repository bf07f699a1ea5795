/-
`Update()` neither loses, duplicates nor reorders.

Between its test and its `pop_front()` the queue is not locked, but only
connections work on it meanwhile, and they only push: what the test has
seen is still there (`Inv.nonempty`). So every message that was pushed
has been handed out, is in hand, or is still queued, in the order of the
pushes (`Inv.conserved`), whatever the interleaving
(`update_conserves`).

Two things here are history. What `handedOut` records is what a callback
that keeps a log has written down (`Logs`), and a call is recorded to have
seen the queue empty where the test of the loop found nothing queued
(`saw_empty`).
-/
import AWEnginePacket.Lib.Lts
import AWEnginePacket.Model.UpdateSteps
import AWEnginePacket.Proofs.Compression

namespace AWEnginePacket

open Effect

-- ============================================================== the queue

namespace ThreadSafeQueue

variable {T : Type} {q q' : ThreadSafeQueue T} {a : Action T}

/-- A push puts its item behind the others; its other steps put in
nothing. -/
theorem data_pushBack (ha : a.isPushBack = true)
    (hs : step a q = some q') : q'.mData = q.mData ++ a.item.toList := by
  cases a with
  | push p e item =>
      cases e with
      | front => cases ha
      | back =>
          obtain ⟨-, rfl⟩ := Lts.of_guarded hs
          rfl
  | pushLock p =>
      obtain ⟨-, rfl⟩ := Lts.of_guarded hs
      exact (List.append_nil q.mData).symm
  | notifyOne p =>
      obtain ⟨-, rfl⟩ := Lts.of_guarded hs
      exact (List.append_nil q.mData).symm
  | pushUnlock p =>
      obtain ⟨-, rfl⟩ := Lts.of_guarded hs
      exact (List.append_nil q.mData).symm
  | pushReturn p =>
      obtain ⟨-, rfl⟩ := Lts.of_guarded hs
      exact (List.append_nil q.mData).symm
  | _ => cases ha

/-- `wait()` takes nothing. -/
theorem data_wait (ha : a = .wait ∨ a.isWait = true)
    (hs : step a q = some q') : q'.mData = q.mData := by
  cases a with
  | popFront => rcases ha with ha | ha <;> cases ha
  | push p e item => rcases ha with ha | ha <;> cases ha
  | pushLock p => rcases ha with ha | ha <;> cases ha
  | notifyOne p => rcases ha with ha | ha <;> cases ha
  | pushUnlock p => rcases ha with ha | ha <;> cases ha
  | pushReturn p => rcases ha with ha | ha <;> cases ha
  | _ =>
      obtain ⟨-, rfl⟩ := Lts.of_guarded hs
      rfl

theorem data_popFront (hs : step .popFront q = some q') :
    q'.mData = q.mData.tail := by
  obtain ⟨-, rfl⟩ := Lts.of_guarded hs
  rfl

end ThreadSafeQueue

namespace PacketServer

variable {σ α : Type} {callbacks : UpdateCallbacks σ}

-- =========================================================== the callbacks

/-- The callbacks throw nothing. -/
structure NeverThrow (callbacks : UpdateCallbacks σ) : Prop where
  onMessage : ∀ f, callbacks.onMessage = some f →
    ∀ owner info, Throws (fun _ => False) (f owner info)
  parsePacket : ∀ info, Throws (fun _ => False) (callbacks.parsePacket info)
  onPacket : ∀ f, callbacks.onPacket = some f →
    ∀ owner packet, Throws (fun _ => False) (f owner packet)

theorem throws_callUser {E : Fault → Prop} {m : EStateM Fault σ α}
    (h : Throws E m) : Throws E (callUser m) := by
  intro s e s' hrun
  have hcall : (callUser m).run s = callUser m s := rfl
  rw [hcall, callUser] at hrun
  cases hm : m.run s.user with
  | ok a user =>
      rw [hm] at hrun
      cases hrun
  | error e' user =>
      rw [hm] at hrun
      cases hrun
      exact h _ _ _ hm

/-- A round with an unflagged message comes to its end. -/
theorem run_handOut (hnever : NeverThrow callbacks) {msg : OwnedMessage}
    (hflag : PacketFlags.test msg.second.header.flags
      PacketFlags.compressed = false) (s : UpdateState σ) :
    ∃ s', (handOut callbacks msg).run s = .ok ⟨⟩ s' := by
  have hmessage : Throws (fun _ => False) (messageArrived callbacks msg) := by
    rcases messageArrived_cases callbacks msg with ⟨-, h⟩ | ⟨f, hf, h⟩
    · rw [h]
      exact throws_pure msg.second
    · rw [h]
      exact throws_callUser (hnever.onMessage f hf _ _)
  have hpacket (packet : Option IPacket) :
      Throws (fun _ => False) (packetArrived callbacks msg.first packet) := by
    rcases packetArrived_cases callbacks msg.first packet
      with h | ⟨f, p, hf, h⟩
    · rw [h]
      exact throws_pure PUnit.unit
    · rw [h]
      exact throws_callUser (hnever.onPacket f hf _ _)
  have hround : Throws (fun _ => False) (handOut callbacks msg) := by
    unfold handOut
    rw [if_neg (by rw [hflag]; exact Bool.false_ne_true)]
    exact hmessage.bind fun info =>
      (throws_callUser (hnever.parsePacket info)).bind hpacket
  obtain ⟨⟨⟩, s', hrun⟩ := hround.run_ok s
  exact ⟨s', hrun⟩

/-- A callback leaves what it makes of the user's data. -/
theorem after_callUser (m : EStateM Fault σ α) (s : UpdateState σ) :
    after (callUser m) s = { s with user := after m s.user } := by
  have hcall : (callUser m).run s = callUser m s := rfl
  rw [after, hcall, callUser, after]
  cases m.run s.user with
  | ok a user => rfl
  | error e user => rfl

/-- `OnMessage()` writes what it is called with down in a log of the
user's, which the other callbacks leave alone. -/
structure Logs (callbacks : UpdateCallbacks σ)
    (log : σ → List OwnedMessage) : Prop where
  onMessage : ∃ f, callbacks.onMessage = some f ∧ ∀ owner info user,
    log (after (f owner info) user) = log user ++ [⟨owner, info⟩]
  parsePacket : ∀ info user,
    log (after (callbacks.parsePacket info) user) = log user
  onPacket : ∀ f, callbacks.onPacket = some f → ∀ owner packet user,
    log (after (f owner packet) user) = log user

variable {log : σ → List OwnedMessage}

/-- The log is not written to. -/
def logFrame (log : σ → List OwnedMessage) : Frame (UpdateState σ) where
  rel s s' := log s'.user = log s.user
  refl _ := rfl
  trans h h' := h'.trans h

theorem callUser_keeps_log {m : EStateM Fault σ α}
    (h : ∀ user, log (after m user) = log user) :
    Keeps (logFrame log) (callUser m) := by
  intro s
  show log (after (callUser m) s).user = log s.user
  rw [after_callUser]
  exact h s.user

/-- What is handed out is handed to `OnMessage()`, once. -/
theorem handOut_logs (hlog : Logs callbacks log) {msg : OwnedMessage}
    (hflag : PacketFlags.test msg.second.header.flags
      PacketFlags.compressed = false) {s s' : UpdateState σ}
    (hrun : (handOut callbacks msg).run s = .ok ⟨⟩ s') :
    log s'.user = log s.user ++ [msg] := by
  unfold handOut at hrun
  rw [if_neg (by rw [hflag]; exact Bool.false_ne_true)] at hrun
  obtain ⟨info, s₁, hmessage, hrest⟩ := of_run_bind_ok hrun
  obtain ⟨f, hf, hwrites⟩ := hlog.onMessage
  have hlogged : log s₁.user = log s.user ++ [msg] := by
    have hafter := after_of_ok hmessage
    unfold messageArrived at hafter
    simp only [hf] at hafter
    rw [← hafter, after_callUser]
    exact hwrites msg.first msg.second s.user
  have hpacket (packet : Option IPacket) :
      Keeps (logFrame log) (packetArrived callbacks msg.first packet) := by
    rcases packetArrived_cases callbacks msg.first packet
      with h | ⟨g, p, hg, h⟩
    · rw [h]
      exact keeps_pure PUnit.unit
    · rw [h]
      exact callUser_keeps_log (hlog.onPacket g hg _ _)
  have hkeeps := (callUser_keeps_log (hlog.parsePacket info)).bind hpacket
  have hsame : log s'.user = log s₁.user := hkeeps.of_ok hrest
  rw [hsame, hlogged]

-- =========================================================== the invariant

/-- The call returned how many messages it handed out, as many as it was
allowed to if it has not seen the queue empty. -/
def UpdateCall.Exact (call : UpdateCall) : Prop :=
  ∃ n, call.outcome = .ok n ∧ n.toNat = call.batch.length
    ∧ n ≤ call.maximumMessages
    ∧ (n < call.maximumMessages → call.sawEmpty = true)

/-- The thread is past a test of the loop that let it go on. -/
def Updater.inRound : Updater → Bool
  | .popping => true
  | .handing _ => true
  | _ => false

/-- What has been popped and not yet handed out. -/
def Updater.inHand : Updater → List OwnedMessage
  | .handing msg => [msg]
  | _ => []

namespace Updating

/-- What has been handed out, by all calls. -/
def handedOut (s : Updating σ) : List OwnedMessage :=
  s.calls.flatMap (·.batch) ++ s.batch

/-- A server before anything has been pushed. -/
def start (user : σ) : Updating σ := { user }

/-- What holds at every step. -/
structure Inv (s : Updating σ) : Prop where
  defined : s.updater ≠ .undefined
  nonempty : s.updater = .popping → s.mMessageInQueue.mData ≠ []
  index : s.messageIndex.toNat = s.batch.length
  outside : s.updater = .idle → s.batch = []
  bound : s.messageIndex ≤ s.maximumMessages
  room : s.updater.inRound = true → s.messageIndex < s.maximumMessages
  conserved : s.handedOut ++ s.updater.inHand ++ s.mMessageInQueue.mData
    = s.pushed
  unflagged : ∀ msg ∈ s.pushed, PacketFlags.test msg.second.header.flags
    PacketFlags.compressed = false
  calls : ∀ call ∈ s.calls, call.Exact

variable {s s' : Updating σ} {q : ThreadSafeQueue OwnedMessage}

theorem inv_start (user : σ) : Inv (start user) where
  defined := nofun
  nonempty := nofun
  index := rfl
  outside _ := rfl
  bound := UInt64.le_refl 0
  room := nofun
  conserved := rfl
  unflagged _ hmsg := absurd hmsg List.not_mem_nil
  calls _ hcall := absurd hcall List.not_mem_nil

/-- The calling thread has moved and taken nothing. -/
theorem Inv.moved (h : Inv s) {updater : Updater} {maximum : UInt64}
    (hdata : q.mData = s.mMessageInQueue.mData)
    (hhand : updater.inHand = s.updater.inHand)
    (hdefined : updater ≠ .undefined)
    (hne : updater = .popping → s.mMessageInQueue.mData ≠ [])
    (hout : updater = .idle → s.batch = [])
    (hbound : s.messageIndex ≤ maximum)
    (hroom : updater.inRound = true → s.messageIndex < maximum) :
    Inv { s with
      mMessageInQueue := q, updater, maximumMessages := maximum } where
  defined := hdefined
  nonempty hp := by
    show q.mData ≠ []
    rw [hdata]
    exact hne hp
  index := h.index
  outside := hout
  bound := hbound
  room := hroom
  conserved := by
    show s.handedOut ++ updater.inHand ++ q.mData = s.pushed
    rw [hdata, hhand]
    exact h.conserved
  unflagged := h.unflagged
  calls := h.calls

/-- A batch that is closed stays handed out. -/
theorem handedOut_leave {outcome : Except Fault UInt64} {sawEmpty : Bool} :
    (s.leave outcome sawEmpty).handedOut = s.handedOut := by
  show (s.calls ++ [_]).flatMap UpdateCall.batch ++ [] = s.handedOut
  rw [List.flatMap_append, List.flatMap_singleton, List.append_nil]
  rfl

/-- `Update()` returns. -/
theorem Inv.leave (h : Inv s) {sawEmpty : Bool}
    (hhand : s.updater.inHand = [])
    (hsaw : s.messageIndex < s.maximumMessages → sawEmpty = true) :
    Inv (s.leave (.ok s.messageIndex) sawEmpty) where
  defined := nofun
  nonempty := nofun
  index := rfl
  outside _ := rfl
  bound := UInt64.zero_le
  room := nofun
  conserved := by
    have hcons := h.conserved
    rw [hhand, List.append_nil] at hcons
    show (s.leave _ _).handedOut ++ [] ++ s.mMessageInQueue.mData = s.pushed
    rw [handedOut_leave, List.append_nil]
    exact hcons
  unflagged := h.unflagged
  calls := by
    intro call hcall
    rcases List.mem_append.mp hcall with hcall | hcall
    · exact h.calls call hcall
    · rw [List.mem_singleton.mp hcall]
      exact ⟨s.messageIndex, rfl, h.index, h.bound, hsaw⟩

/-- A connection's thread. -/
theorem inv_pushBack {a : ThreadSafeQueue.Action OwnedMessage} (h : Inv s)
    (ha : a.isPushBack = true)
    (hflag : ∀ msg ∈ a.item, PacketFlags.test msg.second.header.flags
      PacketFlags.compressed = false)
    (hs : ThreadSafeQueue.step a s.mMessageInQueue = some q) :
    Inv { s with
      pushed := s.pushed ++ a.item.toList, mMessageInQueue := q } := by
  have hdata := ThreadSafeQueue.data_pushBack ha hs
  refine ⟨h.defined, fun hp => ?_, h.index, h.outside, h.bound, h.room,
    ?_, ?_, h.calls⟩
  · show q.mData ≠ []
    rw [hdata]
    exact List.append_ne_nil_of_left_ne_nil (h.nonempty hp) _
  · show s.handedOut ++ s.updater.inHand ++ q.mData
      = s.pushed ++ a.item.toList
    rw [hdata, ← h.conserved]
    simp only [List.append_assoc]
  · intro msg hmsg
    rcases List.mem_append.mp hmsg with hmsg | hmsg
    · exact h.unflagged msg hmsg
    · exact hflag msg (Option.mem_toList.mp hmsg)

/-- The test of the loop. -/
theorem inv_test (h : Inv s) (hu : s.updater = .testing) : Inv s.test := by
  have hhand : s.updater.inHand = [] := by rw [hu]; rfl
  unfold test
  by_cases hempty : s.mMessageInQueue.mData.isEmpty = true
  · rw [if_pos hempty]
    exact h.leave hhand fun _ => rfl
  · rw [if_neg hempty]
    by_cases hroom : s.messageIndex < s.maximumMessages
    · rw [if_pos hroom]
      have hne : s.mMessageInQueue.mData ≠ [] := fun hnil =>
        hempty (List.isEmpty_iff.mpr hnil)
      exact h.moved rfl hhand.symm nofun (fun _ => hne) nofun h.bound
        fun _ => hroom
    · rw [if_neg hroom]
      exact h.leave hhand fun hlt => absurd hlt hroom

/-- `pop_front()`: there is something to pop. -/
theorem inv_popFront (h : Inv s) (hu : s.updater = .popping)
    (hs : s.popFront = some s') : Inv s' := by
  have hne := h.nonempty hu
  unfold popFront at hs
  cases hdata : s.mMessageInQueue.mData with
  | nil => exact absurd hdata hne
  | cons msg rest =>
      rw [hdata] at hs
      obtain ⟨q, hq, rfl⟩ := Option.map_eq_some_iff.mp hs
      have htail := ThreadSafeQueue.data_popFront hq
      refine ⟨nofun, nofun, h.index, nofun, h.bound, fun _ => ?_, ?_,
        h.unflagged, h.calls⟩
      · exact h.room (by rw [hu]; rfl)
      · have hcons := h.conserved
        rw [hu, hdata] at hcons
        have hq' : q.mData = rest := by
          rw [htail, hdata, List.tail_cons]
        show s.handedOut ++ [msg] ++ q.mData = s.pushed
        rw [hq', ← hcons]
        simp [Updater.inHand]

/-- Below its bound the index does not wrap. -/
theorem succ_toNat (h : s.messageIndex < s.maximumMessages) :
    (s.messageIndex + 1).toNat = s.messageIndex.toNat + 1 := by
  have hlt := UInt64.lt_iff_toNat_lt.mp h
  have hmax := s.maximumMessages.toNat_lt
  rw [UInt64.toNat_add]
  simp only [UInt64.toNat_one]
  omega

/-- The message in hand has no flag. -/
theorem Inv.unflagged_inHand (h : Inv s) {msg : OwnedMessage}
    (hu : s.updater = .handing msg) :
    PacketFlags.test msg.second.header.flags PacketFlags.compressed
      = false := by
  apply h.unflagged
  rw [← h.conserved, hu]
  simp [Updater.inHand]

/-- The rest of a round, with the message in hand. -/
theorem inv_round (hnever : NeverThrow callbacks) (h : Inv s)
    {msg : OwnedMessage} (hu : s.updater = .handing msg) :
    Inv (round callbacks msg s) := by
  have hcons := h.conserved
  rw [hu] at hcons
  obtain ⟨u, hrun⟩ := run_handOut hnever (h.unflagged_inHand hu)
    ⟨s.mMessageInQueue.mData, s.user⟩
  have hroom := h.room (by rw [hu]; rfl)
  have hsucc := succ_toNat hroom
  unfold round
  rw [hrun]
  refine ⟨nofun, nofun, ?_, nofun, ?_, nofun, ?_, h.unflagged, h.calls⟩
  · show (s.messageIndex + 1).toNat = (s.batch ++ [msg]).length
    rw [hsucc, h.index, List.length_append, List.length_singleton]
  · show s.messageIndex + 1 ≤ s.maximumMessages
    rw [UInt64.le_iff_toNat_le, hsucc]
    exact UInt64.lt_iff_toNat_lt.mp hroom
  · show s.calls.flatMap UpdateCall.batch ++ (s.batch ++ [msg]) ++ []
      ++ s.mMessageInQueue.mData = s.pushed
    rw [← hcons, handedOut]
    simp [Updater.inHand]

/-- What a step pushes. -/
def Action.pushes : Action → List OwnedMessage
  | .pushBack a => a.item.toList
  | _ => []

theorem inv_step (hnever : NeverThrow callbacks) {a : Action} (h : Inv s)
    (hflag : ∀ msg ∈ a.pushes, PacketFlags.test msg.second.header.flags
      PacketFlags.compressed = false)
    (hs : step callbacks a s = some s') : Inv s' := by
  cases a with
  | pushBack a =>
      simp only [step] at hs
      split at hs
      case isFalse => cases hs
      case isTrue ha =>
        obtain ⟨q, hq, rfl⟩ := Option.map_eq_some_iff.mp hs
        exact inv_pushBack h ha
          (fun msg hmsg => hflag msg (Option.mem_toList.mpr hmsg)) hq
  | update maximumMessages waitForMessage =>
      simp only [step] at hs
      split at hs
      case isFalse => cases hs
      case isTrue hu =>
        have hhand : s.updater.inHand = [] := by rw [hu]; rfl
        have hzero : s.messageIndex ≤ maximumMessages := by
          have hindex := h.index
          rw [h.outside hu, List.length_nil] at hindex
          rw [UInt64.le_iff_toNat_le, hindex]
          exact Nat.zero_le _
        cases waitForMessage with
        | true =>
            obtain ⟨q, hq, rfl⟩ := Option.map_eq_some_iff.mp hs
            exact h.moved (ThreadSafeQueue.data_wait (.inl rfl) hq)
              hhand.symm nofun nofun nofun hzero nofun
        | false =>
            cases hs
            exact h.moved rfl hhand.symm nofun nofun nofun hzero nofun
  | wait a =>
      simp only [step] at hs
      split at hs
      case isFalse => cases hs
      case isTrue hu =>
        obtain ⟨q, hq, rfl⟩ := Option.map_eq_some_iff.mp hs
        exact h.moved (ThreadSafeQueue.data_wait (.inr hu.2) hq)
          rfl h.defined h.nonempty h.outside h.bound h.room
  | waited =>
      obtain ⟨⟨hu, -⟩, rfl⟩ := Lts.of_guarded hs
      have hhand : s.updater.inHand = [] := by rw [hu]; rfl
      exact h.moved rfl hhand.symm nofun nofun nofun h.bound nofun
  | enter =>
      obtain ⟨hu, rfl⟩ := Lts.of_guarded hs
      have hhand : s.updater.inHand = [] := by rw [hu]; rfl
      have hbound := h.bound
      split
      case isTrue hzero =>
        have hindex : s.messageIndex = 0 := by
          rw [hzero] at hbound
          exact UInt64.le_zero_iff.mp hbound
        rw [← hindex]
        refine h.leave hhand fun hlt => ?_
        rw [hzero] at hlt
        exact absurd hlt (UInt64.not_lt.mpr UInt64.zero_le)
      case isFalse =>
        exact h.moved rfl hhand.symm nofun nofun nofun hbound nofun
  | test =>
      obtain ⟨⟨hu, -⟩, rfl⟩ := Lts.of_guarded hs
      exact inv_test h hu
  | popFront =>
      simp only [step] at hs
      split at hs
      case isFalse => cases hs
      case isTrue hu => exact inv_popFront h hu.1 hs
  | handOut =>
      simp only [step] at hs
      split at hs
      case h_1 msg hu =>
        cases hs
        exact inv_round hnever h hu
      case h_2 => cases hs

-- ================================================================= runs

/-- A step that pushes nothing, hands out nothing and calls nothing of the
user's. -/
structure Quiet (s s' : Updating σ) : Prop where
  pushed : s'.pushed = s.pushed
  user : s'.user = s.user
  handedOut : s'.handedOut = s.handedOut

theorem quiet_queueStep {a : ThreadSafeQueue.Action OwnedMessage}
    (hs : queueStep a s = some s') : Quiet s s' := by
  obtain ⟨q, -, rfl⟩ := Option.map_eq_some_iff.mp hs
  exact ⟨rfl, rfl, rfl⟩

theorem quiet_leave {outcome : Except Fault UInt64} {sawEmpty : Bool} :
    Quiet s (s.leave outcome sawEmpty) :=
  ⟨rfl, rfl, handedOut_leave⟩

theorem quiet_test : Quiet s s.test := by
  unfold test
  split
  · exact quiet_leave
  · split
    · exact ⟨rfl, rfl, rfl⟩
    · exact quiet_leave

theorem quiet_popFront (hs : s.popFront = some s') : Quiet s s' := by
  unfold popFront at hs
  split at hs
  · cases hs
    exact ⟨rfl, rfl, rfl⟩
  · obtain ⟨hpushed, huser, hhanded⟩ := quiet_queueStep hs
    exact ⟨hpushed, huser, hhanded⟩

/-- What the steps do to the history: a connection pushes, a round hands
out, and the others do nothing. -/
theorem step_cases {a : Action} (hs : step callbacks a s = some s') :
    Quiet s s' ∧ a.pushes = []
      ∨ (∃ b, a = .pushBack b
        ∧ Quiet { s with pushed := s.pushed ++ b.item.toList } s')
      ∨ ∃ msg, a = .handOut ∧ s.updater = .handing msg
        ∧ s' = round callbacks msg s := by
  cases a with
  | pushBack a =>
      simp only [step] at hs
      split at hs
      · exact .inr (.inl ⟨a, rfl, quiet_queueStep hs⟩)
      · cases hs
  | update maximumMessages waitForMessage =>
      simp only [step] at hs
      split at hs
      · refine .inl ⟨?_, rfl⟩
        cases waitForMessage with
        | true =>
            rw [if_pos rfl] at hs
            obtain ⟨hpushed, huser, hhanded⟩ := quiet_queueStep hs
            exact ⟨hpushed, huser, hhanded⟩
        | false =>
            cases hs
            exact ⟨rfl, rfl, rfl⟩
      · cases hs
  | wait a =>
      simp only [step] at hs
      split at hs
      · exact .inl ⟨quiet_queueStep hs, rfl⟩
      · cases hs
  | waited =>
      obtain ⟨-, rfl⟩ := Lts.of_guarded hs
      exact .inl ⟨⟨rfl, rfl, rfl⟩, rfl⟩
  | enter =>
      obtain ⟨-, rfl⟩ := Lts.of_guarded hs
      refine .inl ⟨?_, rfl⟩
      split
      · exact quiet_leave
      · exact ⟨rfl, rfl, rfl⟩
  | test =>
      obtain ⟨-, rfl⟩ := Lts.of_guarded hs
      exact .inl ⟨quiet_test, rfl⟩
  | popFront =>
      simp only [step] at hs
      split at hs
      · exact .inl ⟨quiet_popFront hs, rfl⟩
      · cases hs
  | handOut =>
      simp only [step] at hs
      split at hs
      case h_1 msg hu =>
        cases hs
        exact .inr (.inr ⟨msg, rfl, hu, rfl⟩)
      case h_2 => cases hs

theorem pushed_round (msg : OwnedMessage) :
    (round callbacks msg s).pushed = s.pushed := by
  unfold round
  split
  · rfl
  · rfl

/-- The history records the pushes, and nothing else. -/
theorem pushed_step {a : Action} (hs : step callbacks a s = some s') :
    s'.pushed = s.pushed ++ a.pushes := by
  rcases step_cases hs with ⟨hquiet, ha⟩ | ⟨b, rfl, hquiet⟩
    | ⟨msg, rfl, -, rfl⟩
  · rw [hquiet.pushed, ha, List.append_nil]
  · exact hquiet.pushed
  · rw [pushed_round]
    exact (List.append_nil s.pushed).symm

theorem pushed_run {acts : List Action}
    (hrun : Lts.run (step callbacks) s acts = some s') :
    s'.pushed = s.pushed ++ acts.flatMap Action.pushes := by
  induction acts generalizing s with
  | nil =>
      rw [Lts.run_nil, Option.some.injEq] at hrun
      rw [← hrun, List.flatMap_nil, List.append_nil]
  | cons a acts ih =>
      obtain ⟨s₁, hs, hrest⟩ := Lts.run_cons_eq_some.mp hrun
      rw [ih hrest, pushed_step hs, List.flatMap_cons, List.append_assoc]

-- ================================================ what a call has seen

/-- A call that has seen the queue empty ends where it did: with the test
of the loop, on an empty queue. -/
def EndsTrue (a : Action) (s : Updating σ) (call : UpdateCall) : Prop :=
  call.sawEmpty = true → a = .test ∧ s.mMessageInQueue.mData = []

/-- A step ends at most one call. -/
theorem calls_step {a : Action} (hs : step callbacks a s = some s') :
    s'.calls = s.calls
      ∨ ∃ call, s'.calls = s.calls ++ [call] ∧ EndsTrue a s call := by
  have hqueue {b : ThreadSafeQueue.Action OwnedMessage} {s₀ : Updating σ}
      (h : queueStep b s₀ = some s') (h₀ : s₀.calls = s.calls) :
      s'.calls = s.calls := by
    obtain ⟨q, -, rfl⟩ := Option.map_eq_some_iff.mp h
    exact h₀
  -- a call that ends without having seen the queue empty
  have hblind {outcome : Except Fault UInt64} {s₀ : Updating σ}
      (h₀ : s₀.calls = s.calls) :
      ∃ call, (s₀.leave outcome false).calls = s.calls ++ [call]
        ∧ EndsTrue a s call :=
    ⟨_, congrArg (· ++ [_]) h₀, fun hsaw => absurd hsaw Bool.false_ne_true⟩
  cases a with
  | pushBack b =>
      simp only [step] at hs
      split at hs
      · exact .inl (hqueue hs rfl)
      · cases hs
  | update maximumMessages waitForMessage =>
      simp only [step] at hs
      split at hs
      · cases waitForMessage with
        | true =>
            rw [if_pos rfl] at hs
            exact .inl (hqueue hs rfl)
        | false =>
            cases hs
            exact .inl rfl
      · cases hs
  | wait b =>
      simp only [step] at hs
      split at hs
      · exact .inl (hqueue hs rfl)
      · cases hs
  | waited =>
      obtain ⟨-, rfl⟩ := Lts.of_guarded hs
      exact .inl rfl
  | enter =>
      obtain ⟨-, rfl⟩ := Lts.of_guarded hs
      split
      · exact .inr (hblind rfl)
      · exact .inl rfl
  | test =>
      obtain ⟨-, rfl⟩ := Lts.of_guarded hs
      unfold test
      split
      case isTrue hempty =>
        exact .inr ⟨_, rfl, fun _ => ⟨rfl, List.isEmpty_iff.mp hempty⟩⟩
      case isFalse =>
        split
        · exact .inl rfl
        · exact .inr (hblind rfl)
  | popFront =>
      simp only [step] at hs
      split at hs
      case isFalse => cases hs
      case isTrue =>
        unfold popFront at hs
        split at hs
        · cases hs
          exact .inl rfl
        · exact .inl (hqueue hs rfl)
  | handOut =>
      simp only [step] at hs
      split at hs
      case h_1 msg hu =>
        cases hs
        unfold round
        split
        · exact .inl rfl
        · exact .inr (hblind rfl)
      case h_2 => cases hs

variable (callbacks) in
/-- In the course of the run a test found nothing queued, and ended the
call. -/
def FoundEmpty (user : σ) (acts : List Action) (call : UpdateCall) : Prop :=
  ∃ before later s₁ s₂, acts = before ++ .test :: later
    ∧ Lts.run (step callbacks) (start user) before = some s₁
    ∧ s₁.mMessageInQueue.mData = []
    ∧ step callbacks .test s₁ = some s₂ ∧ s₂.calls = s₁.calls ++ [call]

theorem FoundEmpty.mono {user : σ} {acts : List Action} {call : UpdateCall}
    (h : FoundEmpty callbacks user acts call) (a : Action) :
    FoundEmpty callbacks user (acts ++ [a]) call := by
  obtain ⟨before, later, s₁, s₂, rfl, hrest⟩ := h
  exact ⟨before, later ++ [a], s₁, s₂, by simp, hrest⟩

/-- Every call that has seen the queue empty has. -/
theorem saw_empty {user : σ} {acts : List Action} {call : UpdateCall}
    (hrun : Lts.run (step callbacks) (start user) acts = some s)
    (hcall : call ∈ s.calls) (hsaw : call.sawEmpty = true) :
    FoundEmpty callbacks user acts call := by
  have hall : Lts.run (step callbacks) (start user) acts = some s
      ∧ ∀ call ∈ s.calls, call.sawEmpty = true →
        FoundEmpty callbacks user acts call := by
    refine Lts.run_history (fun acts s =>
      Lts.run (step callbacks) (start user) acts = some s
        ∧ ∀ call ∈ s.calls, call.sawEmpty = true →
          FoundEmpty callbacks user acts call) ?_
      ⟨rfl, fun call hcall => absurd hcall List.not_mem_nil⟩ hrun
    rintro acts s a s' ⟨hacts, hold⟩ hs
    refine ⟨Lts.run_append hacts (Lts.run_singleton.mpr hs), ?_⟩
    intro call hcall hsaw
    rcases calls_step hs with hsame | ⟨ended, hends, htrue⟩
    · exact (hold call (hsame ▸ hcall) hsaw).mono a
    · rw [hends] at hcall
      rcases List.mem_append.mp hcall with hmem | hmem
      · exact (hold call hmem hsaw).mono a
      · cases List.mem_singleton.mp hmem
        obtain ⟨rfl, hempty⟩ := htrue hsaw
        exact ⟨acts, [], s, s', rfl, hacts, hempty, hs, hends⟩
  exact hall.2 call hcall hsaw

-- ============================================================== the log

/-- What is handed out is in the user's log. -/
theorem logged_step (hnever : NeverThrow callbacks)
    (hlog : Logs callbacks log) {earlier : List OwnedMessage} {a : Action}
    (h : Inv s) (hlogged : log s.user = earlier ++ s.handedOut)
    (hs : step callbacks a s = some s') :
    log s'.user = earlier ++ s'.handedOut := by
  rcases step_cases hs with ⟨hquiet, -⟩ | ⟨b, -, hquiet⟩
    | ⟨msg, -, hu, rfl⟩
  · rw [hquiet.user, hquiet.handedOut]
    exact hlogged
  · rw [hquiet.user, hquiet.handedOut]
    exact hlogged
  · have hflag := h.unflagged_inHand hu
    obtain ⟨u, hrun⟩ := run_handOut hnever hflag
      ⟨s.mMessageInQueue.mData, s.user⟩
    have hwritten := handOut_logs hlog hflag hrun
    rw [hlogged] at hwritten
    unfold round
    rw [hrun]
    show log u.user
      = earlier ++ (s.calls.flatMap UpdateCall.batch ++ (s.batch ++ [msg]))
    rw [hwritten, handedOut, List.append_assoc, List.append_assoc]

/-- Whatever the interleaving of pushes of messages without the flag with
calls of `Update()`: nothing is popped off an empty queue; every call has
returned the number of messages it handed out, its bound if it did not
see the queue empty; the messages handed out by all calls, the one in
hand, and those still queued are those pushed, in the order they were
pushed in, and so for each connection; and `OnMessage()` was called with
those handed out, in that order. -/
theorem update_conserves (hnever : NeverThrow callbacks) {user : σ}
    {acts : List Action}
    (hflag : ∀ a ∈ acts, ∀ msg ∈ a.pushes,
      PacketFlags.test msg.second.header.flags PacketFlags.compressed
        = false)
    (hrun : Lts.run (step callbacks) (start user) acts = some s) :
    (s.updater = .popping → s.mMessageInQueue.mData ≠ [])
      ∧ s.updater ≠ .undefined
      ∧ (∀ call ∈ s.calls, call.Exact)
      ∧ s.handedOut ++ s.updater.inHand ++ s.mMessageInQueue.mData
        = acts.flatMap Action.pushes
      ∧ (∀ owner, (s.handedOut ++ s.updater.inHand
          ++ s.mMessageInQueue.mData).filter (·.first = owner)
        = (acts.flatMap Action.pushes).filter (·.first = owner))
      ∧ ∀ log, Logs callbacks log →
        log s.user = log user ++ s.handedOut := by
  have hmeets : Lts.Meets (step callbacks)
      (fun _ a => True ∧ ∀ msg ∈ a.pushes, PacketFlags.test
        msg.second.header.flags PacketFlags.compressed = false)
      (start user) acts :=
    (Lts.Meets.of_forall (fun _ _ => trivial) _ acts).and_forall hflag
  have hinv : Inv s ∧ ∀ log, Logs callbacks log →
      log s.user = log user ++ s.handedOut := by
    apply Lts.run_invariant_of_meets (fun s => Inv s ∧
      ∀ log, Logs callbacks log → log s.user = log user ++ s.handedOut)
      ?_ ⟨inv_start user, ?_⟩ hmeets hrun
    · rintro s a s' ⟨h, hlogged⟩ ⟨-, hflag⟩ hs
      refine ⟨inv_step hnever h hflag hs, fun log hlog => ?_⟩
      exact logged_step hnever hlog h (hlogged log hlog) hs
    · intro log hlog
      exact (List.append_nil (log user)).symm
  have hpushed : s.pushed = acts.flatMap Action.pushes := pushed_run hrun
  have hcons := hinv.1.conserved
  rw [hpushed] at hcons
  exact ⟨hinv.1.nonempty, hinv.1.defined, hinv.1.calls, hcons,
    fun owner => congrArg _ hcons, hinv.2⟩

/-- Callbacks that keep a log and do nothing else. -/
def loggingCallbacks : UpdateCallbacks (List OwnedMessage) where
  onMessage := some fun owner info => do
    modify (· ++ [⟨owner, info⟩])
    pure info
  parsePacket _ := pure none
  onPacket := none

/-- The message of a connection, with the given ID and without a body. -/
def emptyMessage (owner : Nat) (id : UInt8) : OwnedMessage :=
  ⟨some owner, { header := { id } }⟩

/-- A `push_back()` by the `p`-th thread. -/
def pushBack (p : Nat) (msg : OwnedMessage) : List Action :=
  [.pushBack (.push p .back msg), .pushBack (.pushLock p),
    .pushBack (.notifyOne p), .pushBack (.pushUnlock p),
    .pushBack (.pushReturn p)]

/-- Two connections, and an unlimited call between whose test and pop one
of them pushes again. -/
def interleaving : List Action :=
  pushBack 0 (emptyMessage 0 1) ++ pushBack 1 (emptyMessage 1 2)
    ++ [.update (-1) true, .wait .empty, .waited, .enter, .test]
    ++ pushBack 0 (emptyMessage 0 3)
    ++ [.popFront, .handOut, .test, .popFront, .handOut, .test, .popFront,
      .handOut, .test]

/-- The call hands out all three messages. -/
theorem update_conserves_interleaved :
    ∃ s, Lts.run (step loggingCallbacks) (start []) interleaving = some s
      ∧ s.calls.map (·.batch.length) = [3]
      ∧ s.handedOut ++ s.updater.inHand ++ s.mMessageInQueue.mData
        = interleaving.flatMap Action.pushes
      ∧ s.user = s.handedOut := by
  have hnever : NeverThrow loggingCallbacks := by
    refine ⟨fun f hf owner info => ?_, fun info => throws_pure none, nofun⟩
    injection hf with hf
    rw [← hf]
    exact (throws_modify _).bind fun _ => throws_pure info
  have hlog : Logs loggingCallbacks id :=
    ⟨⟨_, rfl, fun _ _ _ => rfl⟩, fun _ _ => rfl, nofun⟩
  have hflag : ∀ a ∈ interleaving, ∀ msg ∈ a.pushes,
      PacketFlags.test msg.second.header.flags PacketFlags.compressed
        = false := by
    decide +kernel
  obtain ⟨s, hrun, hcalls⟩ :
      ∃ s, Lts.run (step loggingCallbacks) (start []) interleaving = some s
        ∧ s.calls.map (·.batch.length) = [3] := ⟨_, rfl, rfl⟩
  obtain ⟨-, -, -, hcons, -, hlogged⟩ :=
    update_conserves hnever hflag hrun
  exact ⟨s, hrun, hcalls, hcons, hlogged id hlog⟩

end Updating

end PacketServer

end AWEnginePacket
