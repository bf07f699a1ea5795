/-
Slots: a list whose entries are reset in place and erased later.

A loop over a container that must not be disturbed while it is walked
resets the entries it gives up (`l.set i none`) and erases them all when
it is over (`l.filter (·.isSome)`). The facts below say what such a
container holds in between: which slots lie behind the position of the
loop, and that resetting a slot takes its occupant out, once
(`perm_reset`).
-/
import Mathlib.Data.List.Basic
import Mathlib.Data.List.Perm.Basic

namespace Slots

variable {α : Type*} {l : List (Option α)} {i : Nat} {a : α} {p : Option α}

/-- What is behind a slot is behind the one before it. -/
theorem not_mem_drop_succ (h : p ∉ l.drop i) : p ∉ l.drop (i + 1) := by
  intro hmem
  apply h
  rw [← List.drop_drop] at hmem
  exact List.mem_of_mem_drop hmem

/-- The slot itself is not behind it. -/
theorem not_mem_drop_of_getElem? (h : p ∉ l.drop i) (hi : l[i]? = some p) :
    False := by
  apply h
  rw [List.drop_eq_getElem?_toList_append, hi]
  exact List.mem_append_left _ (List.mem_singleton_self p)

/-- Erasing leaves no slot empty. -/
theorem none_not_mem_filter : none ∉ l.filter (·.isSome) := by
  intro hmem
  have := (List.mem_filter.mp hmem).2
  cases this

/-- Resetting a slot puts nobody else out. -/
theorem mem_reset (hi : l[i]? = some p) (hne : some a ≠ p)
    (h : some a ∈ l) : some a ∈ l.set i none := by
  obtain ⟨j, hj⟩ := List.mem_iff_getElem?.mp h
  have hij : i ≠ j := by
    rintro rfl
    rw [hi, Option.some.injEq] at hj
    exact hne hj.symm
  apply List.mem_of_getElem? (i := j)
  rw [List.getElem?_set_ne hij]
  exact hj

/-- Resetting a slot brings nobody in. -/
theorem sublist_reset (l : List (Option α)) (i : Nat) :
    ((l.set i none).filter (·.isSome)).Sublist (l.filter (·.isSome)) := by
  induction l generalizing i with
  | nil => exact List.Sublist.refl _
  | cons p rest ih =>
      cases i with
      | zero => exact (List.sublist_cons_self p rest).filter _
      | succ i =>
          rw [List.set_cons_succ]
          cases p with
          | none => exact ih i
          | some a => exact (ih i).cons_cons _

/-- Resetting a slot takes its occupant out, once. -/
theorem perm_reset (hi : l[i]? = some (some a)) :
    ((l.set i none).filter (·.isSome) ++ [some a]).Perm
      (l.filter (·.isSome)) := by
  obtain ⟨hlt, hget⟩ := List.getElem?_eq_some_iff.mp hi
  have hl : l = l.take i ++ some a :: l.drop (i + 1) := by
    rw [← hget, List.getElem_cons_drop, List.take_append_drop]
  have hset : l.set i none = l.take i ++ none :: l.drop (i + 1) :=
    List.set_eq_take_append_cons_drop.trans (if_pos hlt)
  have hsome : (l.filter (·.isSome)) = (l.take i).filter (·.isSome)
      ++ some a :: (l.drop (i + 1)).filter (·.isSome) := by
    conv_lhs => rw [hl, List.filter_append]
    rfl
  have hnone : ((l.set i none).filter (·.isSome))
      = (l.take i).filter (·.isSome)
        ++ (l.drop (i + 1)).filter (·.isSome) := by
    rw [hset, List.filter_append]
    rfl
  rw [hsome, hnone, List.append_assoc]
  apply List.Perm.append_left
  exact List.perm_append_singleton (some a) _

/-- An occupant of one slot only is gone with it. -/
theorem not_mem_reset (h : (l.filter (·.isSome)).Nodup)
    (hi : l[i]? = some (some a)) : some a ∉ l.set i none := by
  intro hmem
  have hnodup := (perm_reset hi).nodup_iff.mpr h
  apply (List.nodup_append.mp hnodup).2.2 (some a) ?_ (some a) ?_ rfl
  · exact List.mem_filter.mpr ⟨hmem, rfl⟩
  · exact List.mem_singleton_self _

/-- It is in no other. -/
theorem slot_unique {j : Nat} (h : (l.filter (·.isSome)).Nodup)
    (hi : l[i]? = some (some a)) (hj : l[j]? = some (some a)) : i = j := by
  by_contra hne
  apply not_mem_reset h hi
  apply List.mem_of_getElem? (i := j)
  rw [List.getElem?_set_ne hne]
  exact hj

end Slots
