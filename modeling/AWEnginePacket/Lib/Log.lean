/-
Append-only logs.

`last? f` is the most recent value that `f` reads off a log, the way a
variable holds what was last assigned to it. `Justified ok` says that
every entry was in order when it was made: `ok` relates an entry to the
log before it. A log grows by one entry at a time, so both are
maintained by one rule each (`last?_append_singleton`,
`justified_append_singleton`).
-/
import Mathlib.Data.List.Induction

namespace Log

variable {α β : Type*}

-- ====================================================== the latest value

/-- The most recent value `f` reads off the log. -/
def last? (f : α → Option β) (l : List α) : Option β :=
  (l.filterMap f).getLast?

/-- An entry with a value is the latest. -/
theorem last?_append_of_some {f : α → Option β} {l : List α} {o : α} {v : β}
    (h : f o = some v) : last? f (l ++ [o]) = some v := by
  rw [last?, List.filterMap_append, List.filterMap_cons_some h,
    List.filterMap_nil, List.getLast?_concat]

/-- An entry without one changes nothing. -/
theorem last?_append_of_none {f : α → Option β} {l : List α} {o : α}
    (h : f o = none) : last? f (l ++ [o]) = last? f l := by
  rw [last?, List.filterMap_append, List.filterMap_cons_none h,
    List.filterMap_nil, List.append_nil, last?]

/-- Entries without one change nothing. -/
theorem last?_append_of_forall_none {f : α → Option β} {l post : List α}
    (h : ∀ o ∈ post, f o = none) : last? f (l ++ post) = last? f l := by
  rw [last?, List.filterMap_append, List.filterMap_eq_nil_iff.mpr h,
    List.append_nil, last?]

/-- The latest value was read off an entry. -/
theorem exists_of_last? {f : α → Option β} {l : List α} {v : β}
    (h : last? f l = some v) : ∃ o ∈ l, f o = some v :=
  List.mem_filterMap.mp (List.mem_of_getLast? h)

-- ========================================================= justification

/-- Every entry stands in the relation `ok` to the log before it. -/
def Justified (ok : List α → α → Prop) (l : List α) : Prop :=
  ∀ pre o post, l = pre ++ o :: post → ok pre o

variable {ok : List α → α → Prop}

theorem justified_nil : Justified ok [] := by
  intro pre o post h
  cases pre with
  | nil => cases h
  | cons x pre => cases h

/-- The one new entry has to be justified. -/
theorem justified_append_singleton {l : List α} {o : α} :
    Justified ok (l ++ [o]) ↔ Justified ok l ∧ ok l o := by
  constructor
  · intro h
    refine ⟨?_, h l o [] rfl⟩
    intro pre x post hl
    refine h pre x (post ++ [o]) ?_
    rw [hl, List.append_assoc, List.cons_append]
  · intro h pre x post hl
    obtain ⟨hall, hone⟩ := h
    cases post using List.reverseRecOn with
    | nil =>
        obtain ⟨rfl, hx⟩ := List.append_inj' hl rfl
        injection hx with hx
        exact hx ▸ hone
    | append_singleton post y =>
        rw [← List.cons_append, ← List.append_assoc] at hl
        obtain ⟨rfl, -⟩ := List.append_inj' hl rfl
        exact hall pre x post rfl

end Log
