/-
A call of `Update()` that nobody interferes with.

The step model of `Update()` has one step for each critical section and
one for the rest of a round; `PacketServer.update` runs from its call to
its end. Where no connection pushes meanwhile, the steps of a call come
to what the function computes (`update_alone`): a test and a pop are the
test and the pop of a round (`alone_pops`), a test that ends the loop is
the end of the recursion (`alone_returns`), and the rest is induction on
the number of rounds (`loop_alone`).
-/
import AWEnginePacket.Proofs.Updating

namespace AWEnginePacket

open Effect

namespace PacketServer

variable {σ α : Type} {callbacks : UpdateCallbacks σ}

namespace Updating

variable {s : Updating σ}

-- ============================================================= the queue

/-- The callbacks do not reach the queue. -/
def queueFrame : Frame (UpdateState σ) where
  rel s s' := s'.mMessageInQueue = s.mMessageInQueue
  refl _ := rfl
  trans h h' := h'.trans h

theorem callUser_keeps (m : EStateM Fault σ α) :
    Keeps queueFrame (callUser m) := by
  intro s
  show (after (callUser m) s).mMessageInQueue = s.mMessageInQueue
  rw [after_callUser]

theorem handOut_keeps (msg : OwnedMessage) :
    Keeps queueFrame (PacketServer.handOut callbacks msg) := by
  have hmessage : Keeps queueFrame (messageArrived callbacks msg) := by
    rcases messageArrived_cases callbacks msg with ⟨-, h⟩ | ⟨f, -, h⟩
    · rw [h]
      exact keeps_pure msg.second
    · rw [h]
      exact callUser_keeps _
  have hpacket (packet : Option IPacket) :
      Keeps queueFrame (packetArrived callbacks msg.first packet) := by
    rcases packetArrived_cases callbacks msg.first packet
      with h | ⟨f, p, -, h⟩
    · rw [h]
      exact keeps_pure PUnit.unit
    · rw [h]
      exact callUser_keeps _
  unfold PacketServer.handOut
  refine .check (hmessage.bind fun info => ?_)
  exact (callUser_keeps _).bind hpacket

-- ================================================================= a call

/-- A call has ended as the computation did. -/
def EndsAs (s s' : Updating σ)
    (r : EStateM.Result Fault (UpdateState σ) Nat) : Prop :=
  s'.updater = .idle ∧ ∃ call, s'.calls = s.calls ++ [call] ∧
    match r with
    | .ok n u => call.outcome = .ok (UInt64.ofNat n)
        ∧ u = ⟨s'.mMessageInQueue.mData, s'.user⟩
    | .error e u => call.outcome = .error e
        ∧ u = ⟨s'.mMessageInQueue.mData, s'.user⟩

/-- The queue is nobody's. -/
def Unlocked (s : Updating σ) : Prop :=
  s.mMessageInQueue.mMutesQueue = none ∧ s.mMessageInQueue.consumer = .idle

/-- A test that ends the loop. -/
theorem alone_returns (callbacks : UpdateCallbacks σ)
    (hu : s.updater = .testing) (hfree : Unlocked s)
    (h : s.mMessageInQueue.mData = []
      ∨ ¬ s.messageIndex < s.maximumMessages) :
    ∃ s', step callbacks .test s = some s'
      ∧ EndsAs s s' (.ok s.messageIndex.toNat
        ⟨s.mMessageInQueue.mData, s.user⟩) := by
  refine ⟨s.test, if_pos ⟨hu, hfree.1⟩, ?_⟩
  unfold test
  by_cases hempty : s.mMessageInQueue.mData.isEmpty = true
  · rw [if_pos hempty]
    exact ⟨rfl, _, rfl, congrArg _ s.messageIndex.ofNat_toNat.symm, rfl⟩
  · have hroom := h.resolve_left fun hnil =>
      hempty (List.isEmpty_iff.mpr hnil)
    rw [if_neg hempty, if_neg hroom]
    exact ⟨rfl, _, rfl, congrArg _ s.messageIndex.ofNat_toNat.symm, rfl⟩

/-- A test that lets the loop go on, and the pop. -/
theorem alone_pops (callbacks : UpdateCallbacks σ)
    (hu : s.updater = .testing) (hfree : Unlocked s)
    {msg : OwnedMessage} {rest : List OwnedMessage}
    (hdata : s.mMessageInQueue.mData = msg :: rest)
    (hroom : s.messageIndex < s.maximumMessages) :
    Lts.run (step callbacks) s [.test, .popFront] = some { s with
      updater := .handing msg
      mMessageInQueue := { s.mMessageInQueue with mData := rest } } := by
  have htest : step callbacks .test s
      = some { s with updater := .popping } := by
    rw [step, if_pos ⟨hu, hfree.1⟩, test, if_neg (by simp [hdata]),
      if_pos hroom]
  have hpop : ThreadSafeQueue.step .popFront s.mMessageInQueue
      = some { s.mMessageInQueue with mData := rest } := by
    rw [ThreadSafeQueue.step, if_pos ⟨hfree.2, hfree.1, by simp [hdata]⟩,
      hdata, List.tail_cons]
  refine Lts.run_cons htest (Lts.run_singleton.mpr ?_)
  rw [step, if_pos ⟨rfl, hfree.1⟩, popFront]
  simp only [hdata, queueStep, hpop, Option.map_some]

/-- What a round that comes to its end leaves for the next. -/
structure NextRound (s s' : Updating σ) (u : UpdateState σ) : Prop where
  updater : s'.updater = .testing
  free : Unlocked s'
  queue : s'.mMessageInQueue.mData = u.mMessageInQueue
  user : s'.user = u.user
  index : s'.messageIndex = s.messageIndex + 1
  maximum : s'.maximumMessages = s.maximumMessages
  calls : s'.calls = s.calls

theorem alone_round (callbacks : UpdateCallbacks σ)
    (hu : s.updater = .testing) (hfree : Unlocked s)
    {msg : OwnedMessage} {rest : List OwnedMessage}
    (hdata : s.mMessageInQueue.mData = msg :: rest)
    (hroom : s.messageIndex < s.maximumMessages) {u : UpdateState σ}
    (hhand : (PacketServer.handOut callbacks msg).run ⟨rest, s.user⟩
      = .ok ⟨⟩ u) :
    ∃ s', Lts.run (step callbacks) s ([.test, .popFront] ++ [.handOut])
      = some s' ∧ NextRound s s' u := by
  have hpop := alone_pops callbacks hu hfree hdata hroom
  refine ⟨_, Lts.run_append hpop (Lts.run_singleton.mpr rfl), ?_⟩
  simp only [round, hhand]
  have hqueue : u.mMessageInQueue = rest := (handOut_keeps msg).of_ok hhand
  exact ⟨rfl, hfree, hqueue.symm, rfl, rfl, rfl, rfl⟩

/-- A round of the loop is a pop and the rest. -/
theorem run_updateOne (msg : OwnedMessage) (rest : List OwnedMessage)
    (user : σ) :
    (updateOne callbacks).run ⟨msg :: rest, user⟩
      = (PacketServer.handOut callbacks msg).run ⟨rest, user⟩ := by
  have heq : updateOne callbacks
      = popMessage >>= PacketServer.handOut callbacks := rfl
  rw [heq, run_bind_of_ok (run_popMessage_cons rfl)]

/-- The loop goes round. -/
theorem run_updateLoop_next {maximum : UInt64} {rounds index : Nat}
    {msg : OwnedMessage} {rest : List OwnedMessage} {user : σ}
    (hroom : index < maximum.toNat) :
    (updateLoop callbacks maximum (rounds + 1) index).run
        ⟨msg :: rest, user⟩
      = (do PacketServer.handOut callbacks msg
            updateLoop callbacks maximum rounds (index + 1)).run
        ⟨rest, user⟩ := by
  rw [updateLoop, EStateM.run_bind, EStateM.run_get]
  simp only [List.isEmpty_cons, Bool.not_false, Bool.true_and,
    decide_eq_true_eq]
  rw [if_pos hroom, EStateM.run_bind, EStateM.run_bind, run_updateOne]

/-- The loop ends. -/
theorem run_updateLoop_end {maximum : UInt64} {rounds index : Nat}
    {u : UpdateState σ}
    (h : u.mMessageInQueue = [] ∨ ¬ index < maximum.toNat) :
    (updateLoop callbacks maximum rounds index).run u = .ok index u := by
  cases rounds with
  | zero => rfl
  | succ rounds =>
      rw [updateLoop, EStateM.run_bind, EStateM.run_get]
      simp only
      rw [if_neg]
      · rfl
      · rcases h with h | h
        · simp [h]
        · simp [h]

/-- The loop, in as many rounds as there are messages. -/
theorem loop_alone (callbacks : UpdateCallbacks σ) {rounds : Nat}
    (hu : s.updater = .testing) (hfree : Unlocked s)
    (hr : s.mMessageInQueue.mData.length ≤ rounds) :
    ∃ acts s', Lts.run (step callbacks) s acts = some s'
      ∧ EndsAs s s' ((updateLoop callbacks s.maximumMessages rounds
          s.messageIndex.toNat).run ⟨s.mMessageInQueue.mData, s.user⟩) := by
  induction rounds generalizing s with
  | zero =>
      have hnil : s.mMessageInQueue.mData = [] :=
        List.length_eq_zero_iff.mp (Nat.le_zero.mp hr)
      obtain ⟨s', hs, hends⟩ :=
        alone_returns callbacks hu hfree (.inl hnil)
      exact ⟨[.test], s', Lts.run_singleton.mpr hs, hends⟩
  | succ rounds ih =>
      by_cases hend : s.mMessageInQueue.mData = []
          ∨ ¬ s.messageIndex < s.maximumMessages
      · obtain ⟨s', hs, hends⟩ :=
          alone_returns callbacks hu hfree hend
        refine ⟨[.test], s', Lts.run_singleton.mpr hs, ?_⟩
        rw [run_updateLoop_end]
        · exact hends
        · rwa [UInt64.lt_iff_toNat_lt] at hend
      · rw [not_or, not_not] at hend
        obtain ⟨hne, hroom⟩ := hend
        obtain ⟨msg, rest, hdata⟩ := List.exists_cons_of_ne_nil hne
        have hlt := UInt64.lt_iff_toNat_lt.mp hroom
        have hpop := alone_pops callbacks hu hfree hdata hroom
        rw [hdata, run_updateLoop_next hlt]
        cases hhand : (PacketServer.handOut callbacks msg).run
            ⟨rest, s.user⟩ with
        | error e u =>
            have hqueue : u.mMessageInQueue = rest :=
              (handOut_keeps msg).of_error hhand
            rw [run_bind_of_error hhand]
            refine ⟨[.test, .popFront] ++ [.handOut], _,
              Lts.run_append hpop (Lts.run_singleton.mpr rfl), ?_⟩
            simp only [round, hhand]
            refine ⟨rfl, _, rfl, rfl, ?_⟩
            rw [← hqueue]
            rfl
        | ok v u =>
            rw [run_bind_of_ok hhand]
            obtain ⟨s₁, hround, hnext⟩ :=
              alone_round callbacks hu hfree hdata hroom hhand
            have hqueue : u.mMessageInQueue = rest :=
              (handOut_keeps msg).of_ok hhand
            have hr₁ : s₁.mMessageInQueue.mData.length ≤ rounds := by
              rw [hdata, List.length_cons] at hr
              rw [hnext.queue, hqueue]
              exact Nat.le_of_succ_le_succ hr
            obtain ⟨acts, s', hrun, hidle, hends⟩ :=
              ih hnext.updater hnext.free hr₁
            refine ⟨_, s', Lts.run_append hround hrun, hidle, ?_⟩
            rw [hnext.queue, hnext.user, hnext.index, hnext.maximum,
              hnext.calls, succ_toNat hroom] at hends
            exact hends

/-- A call of `Update()` that nobody interferes with hands out what
`PacketServer.update` does, returns or throws the same, and leaves the
same queue. -/
theorem update_alone (hu : s.updater = .idle) (hindex : s.messageIndex = 0)
    (hfree : Unlocked s) (maximum : UInt64) :
    ∃ acts s', Lts.run (step callbacks) s (.update maximum false :: acts)
        = some s'
      ∧ EndsAs s s' ((PacketServer.update callbacks maximum).run
        ⟨s.mMessageInQueue.mData, s.user⟩) := by
  have hupdate : step callbacks (.update maximum false) s
      = some { s with updater := .entered, maximumMessages := maximum } := by
    rw [step, if_pos hu]
    rfl
  unfold PacketServer.update
  by_cases hzero : maximum = 0
  · rw [if_pos hzero]
    have henter : step callbacks .enter
        { s with updater := .entered, maximumMessages := maximum }
        = some (leave { s with
            updater := .entered, maximumMessages := maximum }
          (.ok 0) false) := by
      rw [step, if_pos rfl, if_pos hzero]
    refine ⟨[.enter], _, Lts.run_cons hupdate
      (Lts.run_singleton.mpr henter), ?_⟩
    exact ⟨rfl, _, rfl, rfl, rfl⟩
  · rw [if_neg hzero, EStateM.run_bind, EStateM.run_get]
    have henter : step callbacks .enter
        { s with updater := .entered, maximumMessages := maximum }
        = some { s with updater := .testing, maximumMessages := maximum } := by
      rw [step, if_pos rfl, if_neg hzero]
    obtain ⟨acts, s', hrun, hends⟩ := loop_alone callbacks
      (s := { s with updater := .testing, maximumMessages := maximum })
      rfl hfree (Nat.le_refl _)
    refine ⟨.enter :: acts, s',
      Lts.run_cons hupdate (Lts.run_cons henter hrun), ?_⟩
    simp only [hindex, UInt64.toNat_zero] at hends
    exact hends

end Updating

end PacketServer

end AWEnginePacket
