/-
Wake-ups of a `ThreadSafeQueue`, and how one is lost.

`wait()` tests the queue under one mutex and goes to sleep under
another. A push that falls between the two finds nobody asleep, its
notification is gone, and the consumer then sleeps over a queue that is
not empty.

# The window

`Quiet` is the condition that no `notify_one()` falls between the test
that found the queue empty and the consumer's locking of
`m_MutexItemPushed`. Under it a consumer that has found the queue empty
and sleeps unsignalled faces an empty queue or a push that has yet to
notify (`Inv.attended`), so it is never left behind
(`no_lost_wakeup`). Without it there is nothing to save the consumer:
from any such notification it can be (`lost_of_notify_in_window`).
-/
import AWEnginePacket.Lib.Mutex
import AWEnginePacket.Model.ThreadSafeQueue

namespace AWEnginePacket

open Mutex (Guards)

namespace ThreadSafeQueue

variable {T : Type} {q q' : ThreadSafeQueue T}

/-- The consumer sleeps over a queue that is not empty: no notification
is pending, and no push is in progress that could send one. -/
def Lost (q : ThreadSafeQueue T) : Prop :=
  q.consumer = .blocked ∧ q.signalled = false ∧ q.mData ≠ []
    ∧ ∀ p, q.producer p = .idle

/-- No notification in the consumer's window. -/
def Quiet (q : ThreadSafeQueue T) : Action T → Prop
  | .notifyOne _ => q.consumer ≠ .sawEmpty
  | _ => True

instance (q : ThreadSafeQueue T) (a : Action T) : Decidable (Quiet q a) := by
  unfold Quiet
  split <;> infer_instance

-- ============================================================== mutexes

/-- The consumer is where it holds `m_MutexItemPushed`. -/
def Consumer.hasItem : Consumer → Bool
  | .locked => true
  | .relocked => true
  | _ => false

/-- A producer is. -/
def Producer.hasItem : Producer → Bool
  | .locked => true
  | .notified => true
  | _ => false

/-- Who is where `m_MutexItemPushed` is held. -/
def HasItem (consumer : Consumer) (producer : Nat → Producer) :
    Thread → Prop
  | .consumer => consumer.hasItem = true
  | .producer p => (producer p).hasItem = true

/-- Who is where `m_MutesQueue` is held. -/
def HasQueue (producer : Nat → Producer) : Thread → Prop
  | .consumer => False
  | .producer p => producer p ≠ .idle

section places

variable {c c' : Consumer} {ps : Nat → Producer} {p : Nat} {pc : Producer}
  {t : Thread}

/-- The consumer has moved to where it does not hold the mutex. -/
theorem HasItem.of_consumer (hc : c'.hasItem = false)
    (h : HasItem c' ps t) : HasItem c ps t ∧ t ≠ .consumer := by
  cases t with
  | consumer =>
      have h' : c'.hasItem = true := h
      rw [hc] at h'
      cases h'
  | producer p => exact ⟨h, nofun⟩

/-- The consumer has moved. -/
theorem HasItem.of_locked (h : HasItem c' ps t) :
    HasItem c ps t ∨ t = .consumer := by
  cases t with
  | consumer => exact .inr rfl
  | producer p => exact .inl h

/-- A producer has moved. -/
theorem HasItem.of_update (h : HasItem c (Function.update ps p pc) t) :
    (HasItem c ps t ∧ t ≠ .producer p)
      ∨ (t = .producer p ∧ pc.hasItem = true) := by
  cases t with
  | consumer => exact .inl ⟨h, nofun⟩
  | producer p' =>
      by_cases hp : p' = p
      · subst hp
        rw [HasItem, Function.update_self] at h
        exact .inr ⟨rfl, h⟩
      · rw [HasItem, Function.update_of_ne hp] at h
        refine .inl ⟨h, fun heq => hp ?_⟩
        injection heq

/-- A producer has moved to where it does not hold the mutex. -/
theorem HasItem.of_released (hpc : pc.hasItem = false)
    (h : HasItem c (Function.update ps p pc) t) :
    HasItem c ps t ∧ t ≠ .producer p := by
  rcases h.of_update with h | ⟨-, hheld⟩
  · exact h
  · rw [hpc] at hheld
    cases hheld

theorem HasQueue.of_update (h : HasQueue (Function.update ps p pc) t) :
    (HasQueue ps t ∧ t ≠ .producer p) ∨ (t = .producer p ∧ pc ≠ .idle) := by
  cases t with
  | consumer => cases h
  | producer p' =>
      by_cases hp : p' = p
      · subst hp
        rw [HasQueue, Function.update_self] at h
        exact .inr ⟨rfl, h⟩
      · rw [HasQueue, Function.update_of_ne hp] at h
        refine .inl ⟨h, fun heq => hp ?_⟩
        injection heq

/-- A producer that was in a push has moved. -/
theorem HasQueue.of_moved (hp : ps p ≠ .idle)
    (h : HasQueue (Function.update ps p pc) t) : HasQueue ps t := by
  rcases h.of_update with ⟨h, -⟩ | ⟨rfl, -⟩
  · exact h
  · exact hp

end places

/-- The mutexes are held by those who are where they are held, and
nothing is taken during a push. -/
structure Owned (q : ThreadSafeQueue T) : Prop where
  item : Guards q.mMutexItemPushed (HasItem q.consumer q.producer)
  queue : Guards q.mMutesQueue (HasQueue q.producer)
  pushed : ∀ p, q.producer p ≠ .idle → q.mData ≠ []

theorem owned_start : Owned ({} : ThreadSafeQueue T) := by
  refine ⟨?_, ?_, ?_⟩
  · intro t h
    cases t with
    | consumer => cases h
    | producer p => cases h
  · intro t h
    cases t with
    | consumer => cases h
    | producer p => exact absurd rfl h
  · intro p hp
    exact absurd rfl hp

/-- A thread where it holds `m_MutexItemPushed`. -/
private theorem hasItem_producer {p : Nat} {pc : Producer}
    (hp : q.producer p = pc) (hpc : pc.hasItem = true) :
    HasItem q.consumer q.producer (.producer p) := by
  show (q.producer p).hasItem = true
  rw [hp, hpc]

private theorem hasItem_consumer {c : Consumer} (hc : q.consumer = c)
    (hheld : c.hasItem = true) :
    HasItem q.consumer q.producer .consumer := by
  show q.consumer.hasItem = true
  rw [hc, hheld]

private theorem hasQueue_producer {p : Nat} {pc : Producer}
    (hp : q.producer p = pc) (hpc : pc ≠ .idle) :
    HasQueue q.producer (.producer p) := by
  show q.producer p ≠ .idle
  rw [hp]
  exact hpc

theorem mutexes_step {a : Action T} (h : Owned q)
    (hs : step a q = some q') :
    Guards q'.mMutexItemPushed (HasItem q'.consumer q'.producer)
      ∧ Guards q'.mMutesQueue (HasQueue q'.producer) := by
  obtain ⟨hitem, hqueue, -⟩ := h
  cases a with
  | popFront =>
      obtain ⟨-, rfl⟩ := Lts.of_guarded hs
      exact ⟨hitem, hqueue⟩
  | wait =>
      obtain ⟨-, rfl⟩ := Lts.of_guarded hs
      exact ⟨hitem.mono fun t ht => (ht.of_consumer rfl).1, hqueue⟩
  | empty =>
      obtain ⟨-, rfl⟩ := Lts.of_guarded hs
      refine ⟨hitem.mono fun t ht => (ht.of_consumer ?_).1, hqueue⟩
      show Consumer.hasItem (if _ then _ else _) = false
      split
      · rfl
      · rfl
  | lockItemPushed =>
      obtain ⟨⟨-, hfree⟩, rfl⟩ := Lts.of_guarded hs
      rw [hfree] at hitem
      exact ⟨hitem.lock fun t ht => ht.of_locked, hqueue⟩
  | block =>
      obtain ⟨hc, rfl⟩ := Lts.of_guarded hs
      exact ⟨hitem.unlock (hasItem_consumer hc rfl)
        fun t ht => ht.of_consumer rfl, hqueue⟩
  | wake =>
      obtain ⟨-, rfl⟩ := Lts.of_guarded hs
      exact ⟨hitem.mono fun t ht => (ht.of_consumer rfl).1, hqueue⟩
  | relock =>
      obtain ⟨⟨-, hfree⟩, rfl⟩ := Lts.of_guarded hs
      rw [hfree] at hitem
      exact ⟨hitem.lock fun t ht => ht.of_locked, hqueue⟩
  | unlockItemPushed =>
      obtain ⟨hc, rfl⟩ := Lts.of_guarded hs
      exact ⟨hitem.unlock (hasItem_consumer hc rfl)
        fun t ht => ht.of_consumer rfl, hqueue⟩
  | push p e item =>
      obtain ⟨⟨-, hfree⟩, rfl⟩ := Lts.of_guarded hs
      rw [hfree] at hqueue
      refine ⟨hitem.mono fun t ht => (ht.of_released rfl).1,
        hqueue.lock fun t ht => ?_⟩
      rcases ht.of_update with ⟨ht, -⟩ | ⟨ht, -⟩
      · exact .inl ht
      · exact .inr ht
  | pushLock p =>
      obtain ⟨⟨hp, hfree⟩, rfl⟩ := Lts.of_guarded hs
      rw [hfree] at hitem
      refine ⟨hitem.lock fun t ht => ?_,
        hqueue.mono fun t ht => ht.of_moved (by rw [hp]; nofun)⟩
      rcases ht.of_update with ⟨ht, -⟩ | ⟨ht, -⟩
      · exact .inl ht
      · exact .inr ht
  | notifyOne p =>
      obtain ⟨hp, rfl⟩ := Lts.of_guarded hs
      refine ⟨hitem.mono fun t ht => ?_,
        hqueue.mono fun t ht => ht.of_moved (by rw [hp]; nofun)⟩
      rcases ht.of_update with ⟨ht, -⟩ | ⟨rfl, -⟩
      · exact ht
      · exact hasItem_producer hp rfl
  | pushUnlock p =>
      obtain ⟨hp, rfl⟩ := Lts.of_guarded hs
      exact ⟨hitem.unlock (hasItem_producer hp rfl)
          fun t ht => ht.of_released rfl,
        hqueue.mono fun t ht => ht.of_moved (by rw [hp]; nofun)⟩
  | pushReturn p =>
      obtain ⟨hp, rfl⟩ := Lts.of_guarded hs
      have hin := hasQueue_producer hp nofun
      refine ⟨hitem.mono fun t ht => (ht.of_released rfl).1,
        hqueue.unlock hin fun t ht => ?_⟩
      rcases ht.of_update with h | ⟨-, hidle⟩
      · exact h
      · exact absurd rfl hidle

theorem insertAt_ne_nil (e : End) (item : T) (data : List T) :
    insertAt e item data ≠ [] := by
  cases e with
  | front => exact List.cons_ne_nil item data
  | back =>
      rw [insertAt]
      simp

theorem pushed_step {a : Action T} (h : Owned q) (hs : step a q = some q')
    {p : Nat} (hp : q'.producer p ≠ .idle) : q'.mData ≠ [] := by
  have hmoved {p' : Nat} {pc : Producer} (hp' : q.producer p' ≠ .idle)
      (hpc : Function.update q.producer p' pc p ≠ .idle) : q.mData ≠ [] := by
    have hin : HasQueue (Function.update q.producer p' pc) (.producer p) := hpc
    exact h.pushed p (hin.of_moved hp')
  cases a with
  | popFront =>
      obtain ⟨⟨-, hfree, -⟩, rfl⟩ := Lts.of_guarded hs
      have hqueue := h.queue
      rw [hfree] at hqueue
      have hin : HasQueue q.producer (.producer p) := hp
      exact absurd hin hqueue.free
  | push p' e item =>
      obtain ⟨-, rfl⟩ := Lts.of_guarded hs
      exact insertAt_ne_nil e item q.mData
  | pushLock p' =>
      obtain ⟨⟨hp', -⟩, rfl⟩ := Lts.of_guarded hs
      exact hmoved (by rw [hp']; nofun) hp
  | notifyOne p' =>
      obtain ⟨hp', rfl⟩ := Lts.of_guarded hs
      exact hmoved (by rw [hp']; nofun) hp
  | pushUnlock p' =>
      obtain ⟨hp', rfl⟩ := Lts.of_guarded hs
      exact hmoved (by rw [hp']; nofun) hp
  | pushReturn p' =>
      obtain ⟨hp', rfl⟩ := Lts.of_guarded hs
      exact hmoved (by rw [hp']; nofun) hp
  | _ =>
      -- the consumer's other steps touch neither
      obtain ⟨-, rfl⟩ := Lts.of_guarded hs
      exact h.pushed p hp

theorem owned_step {a : Action T} (h : Owned q)
    (hs : step a q = some q') : Owned q' := by
  obtain ⟨hitem, hqueue⟩ := mutexes_step h hs
  exact ⟨hitem, hqueue, fun _ => pushed_step h hs⟩

-- ============================================================== the sleep

/-- A push that has yet to notify. -/
def Notifying (pc : Producer) : Prop := pc = .appended ∨ pc = .locked

/-- The consumer has found the queue empty, and nothing has called it
back. -/
def Resigned (q : ThreadSafeQueue T) : Prop :=
  q.consumer = .sawEmpty ∨ q.consumer = .locked
    ∨ (q.consumer = .blocked ∧ q.signalled = false)

/-- What a consumer about to sleep can count on. -/
structure Inv (q : ThreadSafeQueue T) : Prop extends Owned q where
  attended : Resigned q → q.mData ≠ [] → ∃ p, Notifying (q.producer p)

theorem inv_start : Inv ({} : ThreadSafeQueue T) :=
  ⟨owned_start, fun _ hne => absurd rfl hne⟩

/-- The push that a resigned consumer counts on is not one that has
notified. -/
theorem attended_elsewhere (h : Inv q) (hres : Resigned q)
    (hne : q.mData ≠ []) {p : Nat} {pc : Producer}
    (hp : ¬ Notifying (q.producer p)) :
    ∃ p', Notifying (Function.update q.producer p pc p') := by
  obtain ⟨p', hp'⟩ := h.attended hres hne
  refine ⟨p', ?_⟩
  have hdiff : p' ≠ p := by
    rintro rfl
    exact hp hp'
  rw [Function.update_of_ne hdiff]
  exact hp'

/-- Unsignalled consumers are attended to, whatever quiet step is
taken. -/
theorem attended_step {a : Action T} (h : Inv q) (hquiet : Quiet q a)
    (hs : step a q = some q') (hres : Resigned q') (hne : q'.mData ≠ []) :
    ∃ p, Notifying (q'.producer p) := by
  cases a with
  | popFront =>
      obtain ⟨⟨hc, -⟩, rfl⟩ := Lts.of_guarded hs
      rcases hres with hres | hres | ⟨hres, -⟩ <;> cases hc.symm.trans hres
  | wait =>
      obtain ⟨-, rfl⟩ := Lts.of_guarded hs
      rcases hres with hres | hres | ⟨hres, -⟩ <;> cases hres
  | empty =>
      obtain ⟨-, rfl⟩ := Lts.of_guarded hs
      have hnot : ¬ q.mData.isEmpty = true := by
        rw [List.isEmpty_iff]
        exact hne
      unfold Resigned at hres
      rw [if_neg hnot] at hres
      rcases hres with hres | hres | ⟨hres, -⟩ <;> cases hres
  | lockItemPushed =>
      obtain ⟨⟨hc, -⟩, rfl⟩ := Lts.of_guarded hs
      exact h.attended (.inl hc) hne
  | block =>
      obtain ⟨hc, rfl⟩ := Lts.of_guarded hs
      exact h.attended (.inr (.inl hc)) hne
  | wake =>
      obtain ⟨-, rfl⟩ := Lts.of_guarded hs
      rcases hres with hres | hres | ⟨hres, -⟩ <;> cases hres
  | relock =>
      obtain ⟨-, rfl⟩ := Lts.of_guarded hs
      rcases hres with hres | hres | ⟨hres, -⟩ <;> cases hres
  | unlockItemPushed =>
      obtain ⟨-, rfl⟩ := Lts.of_guarded hs
      rcases hres with hres | hres | ⟨hres, -⟩ <;> cases hres
  | push p e item =>
      obtain ⟨-, rfl⟩ := Lts.of_guarded hs
      refine ⟨p, .inl ?_⟩
      exact Function.update_self p _ q.producer
  | pushLock p =>
      obtain ⟨-, rfl⟩ := Lts.of_guarded hs
      refine ⟨p, .inr ?_⟩
      exact Function.update_self p _ q.producer
  | notifyOne p =>
      obtain ⟨hp, rfl⟩ := Lts.of_guarded hs
      -- the consumer is not in its window, does not hold the producer's
      -- mutex, and is signalled if it sleeps
      rcases hres with hc | hc | ⟨hc, hsig⟩
      · exact absurd hc hquiet
      · have hsame := h.item.unique (hasItem_producer hp rfl)
          (hasItem_consumer hc rfl)
        cases hsame
      · have hb : q.consumer = .blocked := hc
        have hs' : (q.signalled || decide (q.consumer = .blocked)) = false :=
          hsig
        rw [hb] at hs'
        simp at hs'
  | pushUnlock p =>
      obtain ⟨hp, rfl⟩ := Lts.of_guarded hs
      refine attended_elsewhere h hres hne ?_
      rw [hp]
      rintro (hp' | hp') <;> cases hp'
  | pushReturn p =>
      obtain ⟨hp, rfl⟩ := Lts.of_guarded hs
      refine attended_elsewhere h hres hne ?_
      rw [hp]
      rintro (hp' | hp') <;> cases hp'

theorem inv_step {a : Action T} (h : Inv q) (hquiet : Quiet q a)
    (hs : step a q = some q') : Inv q' :=
  ⟨owned_step h.toOwned hs, attended_step h hquiet hs⟩

-- =============================================================== results

/-- As long as no push notifies in the consumer's window, no interleaving
leaves the consumer asleep over items that nobody will tell it of. -/
theorem no_lost_wakeup {acts : List (Action T)}
    (hquiet : Lts.Meets step Quiet {} acts)
    (hrun : Lts.run step {} acts = some q) : ¬ Lost q := by
  have hinv : Inv q := Lts.run_invariant_of_meets Inv
    (fun q a q' h hg hs => inv_step h hg hs) inv_start hquiet hrun
  intro hlost
  obtain ⟨hc, hsig, hne, hidle⟩ := hlost
  obtain ⟨p, hp⟩ := hinv.attended (.inr (.inr ⟨hc, hsig⟩)) hne
  rw [Notifying, hidle p] at hp
  rcases hp with hp | hp <;> cases hp

/-- A notification in the consumer's window is lost for good: if nothing
else is pushed, the consumer goes to sleep over the item. -/
theorem lost_of_notify_in_window {p : Nat} (h : Owned q)
    (hwindow : q.consumer = .sawEmpty)
    (hs : step (.notifyOne p) q = some q') :
    ∃ acts q'', Lts.run step q' acts = some q'' ∧ Lost q'' := by
  obtain ⟨hp, rfl⟩ := Lts.of_guarded hs
  have hin := hasQueue_producer hp nofun
  have hothers (p' : Nat) (hne : p' ≠ p) : q.producer p' = .idle := by
    by_contra hbusy
    have hsame := h.queue.unique hin (show HasQueue q.producer
      (.producer p') from hbusy)
    injection hsame with hsame
    exact hne hsame.symm
  obtain ⟨producer, hproducer⟩ : ∃ producer : Nat → Producer, producer
      = Function.update (Function.update
          (Function.update q.producer p .notified) p .unlocked) p .idle :=
    ⟨_, rfl⟩
  refine ⟨[.pushUnlock p, .pushReturn p, .lockItemPushed, .block],
    { q with mMutesQueue := none, mMutexItemPushed := none
             signalled := false, consumer := .blocked, producer },
    ?_, rfl, rfl, h.pushed p hin, ?_⟩
  · rw [hproducer]
    refine Lts.run_cons (if_pos (Function.update_self ..)) ?_
    refine Lts.run_cons (if_pos (Function.update_self ..)) ?_
    refine Lts.run_cons (if_pos ⟨hwindow, rfl⟩) ?_
    exact Lts.run_singleton.mpr rfl
  · intro p'
    show producer p' = .idle
    rw [hproducer]
    by_cases hp' : p' = p
    · rw [hp', Function.update_self]
    · rw [Function.update_of_ne hp', Function.update_of_ne hp',
        Function.update_of_ne hp', hothers p' hp']

/-- Two pushes, one in front of a sleeping consumer and one before it
tests. -/
theorem no_lost_wakeup_asleep :
    ∃ q : ThreadSafeQueue Nat, Lts.run step {}
        [.wait, .empty, .lockItemPushed, .block, .push 0 .back 7,
          .pushLock 0, .notifyOne 0, .pushUnlock 0, .pushReturn 0, .wake,
          .relock, .unlockItemPushed, .push 1 .front 8, .pushLock 1,
          .notifyOne 1, .pushUnlock 1, .pushReturn 1, .empty] = some q
      ∧ ¬ Lost q := by
  have hquiet : Lts.Meets step Quiet ({} : ThreadSafeQueue Nat)
      [.wait, .empty, .lockItemPushed, .block, .push 0 .back 7,
        .pushLock 0, .notifyOne 0, .pushUnlock 0, .pushReturn 0, .wake,
        .relock, .unlockItemPushed, .push 1 .front 8, .pushLock 1,
        .notifyOne 1, .pushUnlock 1, .pushReturn 1, .empty] := by
    decide +kernel
  exact ⟨_, rfl, no_lost_wakeup hquiet rfl⟩

/-- A push in the consumer's window: nobody is told, and the consumer
sleeps over the item. -/
theorem wakeup_lost :
    ∃ q : ThreadSafeQueue Nat, Lts.run step {}
        [.wait, .empty, .push 0 .back 7, .pushLock 0, .notifyOne 0,
          .pushUnlock 0, .pushReturn 0, .lockItemPushed, .block] = some q
      ∧ Lost q := by
  refine ⟨_, rfl, rfl, rfl, List.cons_ne_nil 7 [], fun p => ?_⟩
  by_cases hp : p = 0
  · rw [hp]
    rfl
  · simp [setProducer]

end ThreadSafeQueue

end AWEnginePacket
