/-
The threads at a `ThreadSafeQueue` come to rest.

Left to themselves, with no new calls and no spurious wake-ups, they can
only take so many steps, whatever the order (`potential_drops`): every
step takes its thread nearer to its return or to its sleep, and the one
that wakes another, the `notify_one()` of a push, pays for all that the
woken thread does until it sleeps again. And nobody is in the way of all
the others (`onward_of_busy`): whoever holds `m_MutexItemPushed` can go
on; where it is free, so can whoever holds `m_MutesQueue`, unless it
pops from an empty deque or peeks at one, which is undefined; where both
are free, so can anybody. So they come to rest outside or asleep
(`settles`).
-/
import AWEnginePacket.Lib.Potential
import AWEnginePacket.Proofs.SharedQueue

namespace AWEnginePacket

open Potential (total total_update)

namespace SharedQueue

variable {T : Type} {q q' : SharedQueue T} {t u : Nat} {p : Point T}
  {act : Action T}

/-- Neither a new call nor a spurious wake-up. -/
def Action.Onward : Action T → Prop
  | .call _ _ | .wake _ => False
  | _ => True

/-- A thread pops from an empty deque, or peeks at one. -/
def Undefined (q : SharedQueue T) : Prop :=
  q.mData = [] ∧ ∃ t e, q.thread t = .inside (.pop e)
    ∨ q.thread t = .inside (.peek e)

/-- Outside, or asleep in `wait()`. -/
def AtRest (p : Point T) : Prop := p = .idle ∨ p = .blocked

-- ============================================================= potential

/-- How far a thread is from its return or its sleep. A push that has
yet to notify has the way of the thread it wakes to go as well. -/
def Point.weight : Point T → Nat
  | .idle | .blocked => 0
  | .left _ | .locked => 1
  | .leaving _ | .sawEmpty => 2
  | .moved _ _ | .signalled | .foundEmpty => 3
  | .relocked => 6
  | .woken => 7
  | .signalling => 11
  | .pushed => 12
  | .inside (.push _ _) => 13
  | .entering (.push _ _) => 14
  | .inside _ => 4
  | .entering _ => 5

/-- Nobody but these is in the queue. -/
def Within (users : Finset Nat) (place : Nat → Point T) : Prop :=
  ∀ t, t ∉ users → place t = .idle

variable {users : Finset Nat} {place : Nat → Point T}

theorem Within.mem (h : Within users place) (ht : place t ≠ .idle) :
    t ∈ users := by
  by_contra hnot
  exact ht (h t hnot)

theorem Within.move (h : Within users place) (ht : t ∈ users) :
    Within users (Function.update place t p) := by
  intro u hu
  have hne : u ≠ t := by
    rintro rfl
    exact hu ht
  rw [Function.update_of_ne hne]
  exact h u hu

/-- A thread comes nearer. -/
theorem Within.drop (h : Within users place)
    (hp : p.weight < (place t).weight) :
    Within users (Function.update place t p)
      ∧ total users Point.weight (Function.update place t p)
        < total users Point.weight place := by
  have ht : t ∈ users := by
    refine h.mem fun hidle => ?_
    rw [hidle] at hp
    cases hp
  have htotal := total_update Point.weight place p ht
  exact ⟨h.move ht, by omega⟩

theorem body_weight {c : Call T} {data data' : List (Option T)}
    (h : body c data = some (p, data')) :
    p.weight < (Point.inside c).weight := by
  cases c <;> simp only [body, Option.map_eq_some_iff, Option.some.injEq,
    Prod.mk.injEq] at h
  case wait =>
    obtain ⟨rfl, -⟩ := h
    split <;> simp [Point.weight]
  case peek e =>
    obtain ⟨x, -, rfl, -⟩ := h
    simp [Point.weight]
  case pop e =>
    obtain ⟨x, -, rfl, -⟩ := h
    simp [Point.weight]
  all_goals
    obtain ⟨rfl, -⟩ := h
    simp [Point.weight]

theorem potential_drops (hinv : Inv q) (hwithin : Within users q.thread)
    (honward : act.Onward) (hs : step act q = some q') :
    Within users q'.thread ∧ total users Point.weight q'.thread
      < total users Point.weight q.thread := by
  cases act with
  | call t c => cases honward
  | wake t => cases honward
  | lock t =>
      obtain ⟨c, ht, -, rfl⟩ := step_lock.mp hs
      refine hwithin.drop ?_
      rw [ht]
      cases c <;> simp [Point.weight]
  | body t =>
      obtain ⟨c, p, data, ht, hbody, rfl⟩ := step_body.mp hs
      refine hwithin.drop ?_
      rw [ht]
      exact body_weight hbody
  | remove t =>
      obtain ⟨e, x, ht, rfl⟩ := step_remove.mp hs
      exact hwithin.drop (by simp [ht, Point.weight])
  | lockPushed t =>
      obtain ⟨ht, -, rfl⟩ := step_lockPushed.mp hs
      exact hwithin.drop (by simp [ht, Point.weight])
  | notifyOne t woken =>
      cases woken with
      | none =>
          obtain ⟨ht, -, rfl⟩ := step_notify_none.mp hs
          exact hwithin.drop (by simp [ht, Point.weight])
      | some u =>
          obtain ⟨ht, hu, rfl⟩ := step_notify_some.mp hs
          have hblocked := (hinv.sleepers u).mp hu
          have hne : u ≠ t := by
            rintro rfl
            rw [ht] at hblocked
            cases hblocked
          have ht' := hwithin.mem (t := t) (by simp [ht])
          have hwithin' := hwithin.move (p := .signalled) ht'
          have hpays := total_update Point.weight q.thread .signalled ht'
          have hu' := hwithin.mem (t := u) (by simp [hblocked])
          have hwoken := total_update Point.weight
            (Function.update q.thread t .signalled) .woken hu'
          rw [Function.update_of_ne hne, hblocked] at hwoken
          rw [ht] at hpays
          refine ⟨hwithin'.move hu', ?_⟩
          show total users Point.weight (Function.update
            (Function.update q.thread t .signalled) u .woken) < _
          simp only [Point.weight] at hpays hwoken
          omega
  | unlockPushed t =>
      obtain ⟨ht, rfl⟩ := step_unlockPushed.mp hs
      exact hwithin.drop (by simp [ht, Point.weight])
  | unlock t =>
      obtain ⟨p, hp, rfl⟩ := step_unlock.mp hs
      rcases hp with ⟨a, ht, rfl⟩ | ⟨ht, rfl⟩
      · exact hwithin.drop (by simp [ht, Point.weight])
      · exact hwithin.drop (by simp [ht, Point.weight])
  | ret t =>
      obtain ⟨a, ht, rfl⟩ := step_ret.mp hs
      exact hwithin.drop (by simp [ht, Point.weight])
  | lockWait t =>
      obtain ⟨ht, -, rfl⟩ := step_lockWait.mp hs
      exact hwithin.drop (by simp [ht, Point.weight])
  | sleep t =>
      obtain ⟨ht, rfl⟩ := step_sleep.mp hs
      exact hwithin.drop (by simp [ht, Point.weight])
  | relock t =>
      obtain ⟨ht, -, rfl⟩ := step_relock.mp hs
      exact hwithin.drop (by simp [ht, Point.weight])
  | unlockWait t =>
      obtain ⟨ht, rfl⟩ := step_unlockWait.mp hs
      exact hwithin.drop (by simp [ht, Point.weight])

-- ============================================================== progress

/-- A method is only stuck where it is undefined. -/
theorem body_defined {c : Call T} (hin : q.thread t = .inside c)
    (hdefined : ¬ Undefined q) :
    ∃ p data, body c q.mData = some (p, data) := by
  have hitem {e : ThreadSafeQueue.End} (hne : q.mData ≠ []) :
      ∃ x, itemAt e q.mData = some x := by
    cases e with
    | front => exact ⟨_, List.head?_eq_some_head hne⟩
    | back => exact ⟨_, List.getLast?_eq_some_getLast hne⟩
  cases c with
  | peek e =>
      obtain ⟨x, hx⟩ := hitem (e := e) fun hempty =>
        hdefined ⟨hempty, t, e, .inr hin⟩
      exact ⟨_, _, by rw [body, hx, Option.map_some]⟩
  | pop e =>
      obtain ⟨x, hx⟩ := hitem (e := e) fun hempty =>
        hdefined ⟨hempty, t, e, .inl hin⟩
      exact ⟨_, _, by rw [body, hx, Option.map_some]⟩
  | push e item => exact ⟨_, _, rfl⟩
  | empty => exact ⟨_, _, rfl⟩
  | size => exact ⟨_, _, rfl⟩
  | clear => exact ⟨_, _, rfl⟩
  | wait => exact ⟨_, _, rfl⟩

/-- Somebody can go on. -/
def CanGoOn (q : SharedQueue T) : Prop :=
  ∃ act q', Action.Onward act ∧ step act q = some q'

/-- Whoever holds `m_MutexItemPushed` can go on. -/
theorem onward_of_holdsItem (ht : (q.thread t).HoldsItem) : CanGoOn q := by
  cases hp : q.thread t <;> rw [hp] at ht <;> try cases ht
  case signalling =>
    by_cases hnone : q.mItemPushed = ∅
    · exact ⟨.notifyOne t none, _, trivial,
        step_notify_none.mpr ⟨hp, hnone, rfl⟩⟩
    · obtain ⟨u, hu⟩ := Finset.nonempty_iff_ne_empty.mpr hnone
      exact ⟨.notifyOne t (some u), _, trivial,
        step_notify_some.mpr ⟨hp, hu, rfl⟩⟩
  case signalled =>
    exact ⟨.unlockPushed t, _, trivial, step_unlockPushed.mpr ⟨hp, rfl⟩⟩
  case locked =>
    exact ⟨.sleep t, _, trivial, step_sleep.mpr ⟨hp, rfl⟩⟩
  case relocked =>
    exact ⟨.unlockWait t, _, trivial, step_unlockWait.mpr ⟨hp, rfl⟩⟩

/-- Where that mutex is free, so can whoever holds `m_MutesQueue`. -/
theorem onward_of_holdsQueue (hdefined : ¬ Undefined q)
    (hfree : q.mMutexItemPushed = none) (ht : (q.thread t).HoldsQueue) :
    CanGoOn q := by
  cases hp : q.thread t with
  | inside c =>
      obtain ⟨p, data, hbody⟩ := body_defined hp hdefined
      exact ⟨.body t, _, trivial, step_body.mpr ⟨c, p, data, hp, hbody, rfl⟩⟩
  | moved e x =>
      exact ⟨.remove t, _, trivial, step_remove.mpr ⟨e, x, hp, rfl⟩⟩
  | pushed =>
      exact ⟨.lockPushed t, _, trivial,
        step_lockPushed.mpr ⟨hp, hfree, rfl⟩⟩
  | signalling => exact onward_of_holdsItem (t := t) (by rw [hp]; trivial)
  | signalled => exact onward_of_holdsItem (t := t) (by rw [hp]; trivial)
  | leaving a =>
      exact ⟨.unlock t, _, trivial,
        step_unlock.mpr ⟨_, .inl ⟨a, hp, rfl⟩, rfl⟩⟩
  | foundEmpty =>
      exact ⟨.unlock t, _, trivial,
        step_unlock.mpr ⟨_, .inr ⟨hp, rfl⟩, rfl⟩⟩
  | _ =>
      rw [hp] at ht
      cases ht

/-- As long as a thread is on its way, one of them can go on. -/
theorem onward_of_busy (hinv : Inv q) (hdefined : ¬ Undefined q)
    (hbusy : ¬ AtRest (q.thread t)) : CanGoOn q := by
  cases hitem : q.mMutexItemPushed with
  | some u => exact onward_of_holdsItem ((hinv.item u).mpr hitem)
  | none =>
      cases hqueue : q.mMutesQueue with
      | some u =>
          exact onward_of_holdsQueue hdefined hitem
            ((hinv.queue u).mpr hqueue)
      | none =>
          cases hp : q.thread t with
          | idle => exact absurd (.inl hp) hbusy
          | blocked => exact absurd (.inr hp) hbusy
          | entering c =>
              exact ⟨.lock t, _, trivial,
                step_lock.mpr ⟨c, hp, hqueue, rfl⟩⟩
          | left a =>
              exact ⟨.ret t, _, trivial, step_ret.mpr ⟨a, hp, rfl⟩⟩
          | sawEmpty =>
              exact ⟨.lockWait t, _, trivial,
                step_lockWait.mpr ⟨hp, hitem, rfl⟩⟩
          | woken =>
              exact ⟨.relock t, _, trivial,
                step_relock.mpr ⟨hp, hitem, rfl⟩⟩
          | locked => exact onward_of_holdsItem (t := t) (by rw [hp]; trivial)
          | relocked =>
              exact onward_of_holdsItem (t := t) (by rw [hp]; trivial)
          | _ =>
              exact onward_of_holdsQueue (t := t) hdefined hitem
                (by rw [hp]; trivial)

-- =============================================================== results

/-- Only finitely many threads have called anything. -/
theorem within_of_run {acts : List (Action T)}
    (hrun : Lts.run step {} acts = some q) :
    Inv q ∧ ∃ users, Within users q.thread := by
  refine Lts.run_invariant (fun q => Inv q ∧ ∃ users, Within users q.thread)
    ?_ ⟨inv_start, ∅, fun _ _ => rfl⟩ hrun
  rintro q act q' ⟨hinv, users, hwithin⟩ hs
  refine ⟨inv_step hinv hs, ?_⟩
  by_cases honward : act.Onward
  · exact ⟨users, (potential_drops hinv hwithin honward hs).1⟩
  · cases act with
    | call t c =>
        obtain ⟨ht, rfl⟩ := step_call.mp hs
        refine ⟨insert t users, fun u hu => ?_⟩
        obtain ⟨hne, hu⟩ := not_or.mp fun h => hu (Finset.mem_insert.mpr h)
        exact (Function.update_of_ne hne ..).trans (hwithin u hu)
    | wake t =>
        obtain ⟨ht, rfl⟩ := step_wake.mp hs
        have hblocked := (hinv.sleepers t).mp ht
        exact ⟨users, hwithin.move (hwithin.mem (by simp [hblocked]))⟩
    | _ => exact absurd trivial honward

/-- From any reachable state, without new calls and spurious wake-ups,
the threads can take so many steps and no more, in any order; and where
none is left to take, all are outside or asleep, unless a pop or a peek
met an empty deque. -/
theorem settles (acts : List (Action T))
    (hrun : Lts.run step {} acts = some q) :
    ∃ n, ∀ onward q', (∀ act ∈ onward, Action.Onward act) →
      Lts.run step q onward = some q' →
        onward.length ≤ n
          ∧ (¬ CanGoOn q' → Undefined q' ∨ ∀ t, AtRest (q'.thread t)) := by
  obtain ⟨hinv, users, hwithin⟩ := within_of_run hrun
  refine ⟨total users Point.weight q.thread, fun onward q' honward hon => ?_⟩
  obtain ⟨⟨hinv', -⟩, hle⟩ := Potential.length_le
    (fun q => Inv q ∧ Within users q.thread)
    (fun q => total users Point.weight q.thread)
    (fun s act s' hJ hact hs => by
      obtain ⟨hwithin', hlt⟩ := potential_drops hJ.1 hJ.2 hact hs
      exact ⟨⟨inv_step hJ.1 hs, hwithin'⟩, hlt⟩)
    ⟨hinv, hwithin⟩ honward hon
  refine ⟨by omega, fun hstuck => ?_⟩
  by_contra hnot
  obtain ⟨hdefined, hbusy⟩ := not_or.mp hnot
  obtain ⟨t, ht⟩ := not_forall.mp hbusy
  exact hstuck (onward_of_busy hinv' hdefined ht)

/-- In the middle of a push, with a thread asleep. -/
theorem settles_handover :
    ∃ q : SharedQueue Nat, Lts.run step {} (handover.take 10) = some q
      ∧ q.thread 1 = .blocked ∧ q.thread 2 = .signalling
      ∧ ∃ n, ∀ onward q', (∀ act ∈ onward, Action.Onward act) →
          Lts.run step q onward = some q' →
            onward.length ≤ n
              ∧ (¬ CanGoOn q' →
                Undefined q' ∨ ∀ t, AtRest (q'.thread t)) :=
  ⟨_, rfl, rfl, rfl, settles (handover.take 10) rfl⟩

end SharedQueue

end AWEnginePacket
