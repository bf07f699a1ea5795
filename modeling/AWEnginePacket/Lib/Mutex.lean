/-
Who holds a mutex.

A lock is modelled by the thread on record as its holder, and each
thread has a place in its own code from which one can tell whether it
should be holding it. `Guards holder has` says that the record is right:
whoever is at such a place is the holder. It is kept by locking a free
mutex, by unlocking one that is held, and by any step that puts nobody
new at such a place; and it gives mutual exclusion (`Guards.unique`).

`Owns held place holder` says more: the holder on record is at such a
place too. Then a thread can tell from
its place alone that it is not the holder.
-/
import Mathlib.Logic.Basic
import Mathlib.Logic.Function.Basic

namespace Mutex

variable {θ : Type*} {holder : Option θ} {has has' : θ → Prop} {t u : θ}

/-- Whoever is where the mutex is held holds it. -/
def Guards (holder : Option θ) (has : θ → Prop) : Prop :=
  ∀ t, has t → holder = some t

/-- Two threads do not hold it. -/
theorem Guards.unique (h : Guards holder has) (ht : has t) (hu : has u) :
    t = u := by
  have hsame := (h t ht).symm.trans (h u hu)
  injection hsame

/-- Nobody holds a free mutex. -/
theorem Guards.free (h : Guards none has) : ¬ has t := by
  intro ht
  cases h t ht

/-- Nobody new is where it is held. -/
theorem Guards.mono (h : Guards holder has) (hsub : ∀ u, has' u → has u) :
    Guards holder has' := fun u hu => h u (hsub u hu)

/-- A free mutex is locked. -/
theorem Guards.lock (h : Guards none has)
    (hsub : ∀ u, has' u → has u ∨ u = t) : Guards (some t) has' := by
  intro u hu
  rcases hsub u hu with hu | hu
  · exact absurd hu h.free
  · rw [hu]

/-- The holder unlocks it. -/
theorem Guards.unlock (h : Guards holder has) (ht : has t)
    (hsub : ∀ u, has' u → has u ∧ u ≠ t) : Guards none has' := by
  intro u hu
  obtain ⟨hold, hne⟩ := hsub u hu
  exact absurd (h.unique hold ht) hne

-- ================================================================ places

variable {π : Type*} {place : θ → π} {p : π}

/-- The threads that are where the mutex is held are the holder on
record. -/
def Owns (held : π → Prop) (place : θ → π) (holder : Option θ) : Prop :=
  ∀ t, held (place t) ↔ holder = some t

variable {held : π → Prop}

/-- Two threads do not hold it. -/
theorem Owns.unique (h : Owns held place holder) (ht : held (place t))
    (hu : held (place u)) : t = u := by
  have hsame := ((h t).mp ht).symm.trans ((h u).mp hu)
  injection hsame

/-- Nobody holds a free mutex. -/
theorem Owns.free (h : Owns held place none) : ¬ held (place t) := by
  intro ht
  cases (h t).mp ht

variable [DecidableEq θ]

/-- A thread moves and holds what it held. -/
theorem Owns.move (h : Owns held place holder)
    (hp : held p ↔ held (place t)) :
    Owns held (Function.update place t p) holder := by
  intro u
  by_cases hu : u = t
  · subst hu
    rw [Function.update_self, hp]
    exact h u
  · rw [Function.update_of_ne hu]
    exact h u

/-- A thread locks a free mutex. -/
theorem Owns.lock (h : Owns held place none) (hp : held p) :
    Owns held (Function.update place t p) (some t) := by
  intro u
  by_cases hu : u = t
  · subst hu
    rw [Function.update_self]
    exact iff_of_true hp rfl
  · rw [Function.update_of_ne hu]
    refine iff_of_false h.free fun hsame => hu ?_
    injection hsame with hsame
    exact hsame.symm

/-- The holder unlocks it. -/
theorem Owns.unlock (h : Owns held place holder) (ht : held (place t))
    (hp : ¬ held p) : Owns held (Function.update place t p) none := by
  intro u
  by_cases hu : u = t
  · subst hu
    rw [Function.update_self]
    exact iff_of_false hp (fun hsame => by cases hsame)
  · rw [Function.update_of_ne hu]
    exact iff_of_false (fun hheld => hu (h.unique hheld ht))
      (fun hsame => by cases hsame)

end Mutex
