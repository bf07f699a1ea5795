/-
Partial, labelled transition functions and their finite runs.

A system is a function `step : α → σ → Option σ`: `none` is a disabled
action. `run` folds it over an action list, `Meets` says that every
step of a run satisfies a guard on (state before, action), and the two
induction rules turn "one step preserves it" into "every run preserves
it" — `run_invariant` for all runs, `run_invariant_of_meets` for the
guarded ones; `run_history` is for what also looks back at the actions,
and `run_trace` for a history that grows by what each step shows.
`always_iff_meets` is for a guard that is exact. `run_simulated` relates
the runs of two systems. Every statement about a whole run in this
development goes through one of the six.
-/
import Mathlib.Data.List.Basic
import Mathlib.Data.List.Induction

namespace Lts

variable {σ : Type*} {α : Type*}

-- ================================================================= runs

/-- Run a list of actions from a state, failing on the first disabled
one. -/
def run (step : α → σ → Option σ) (s : σ) : List α → Option σ
  | [] => some s
  | a :: rest =>
      match step a s with
      | some s' => run step s' rest
      | none => none

/-- Every step the action list takes satisfies the guard, which reads
the state before the step and the action. -/
def Meets (step : α → σ → Option σ) (g : σ → α → Prop) (s : σ) :
    List α → Prop
  | [] => True
  | a :: rest => g s a ∧ ∀ s', step a s = some s' → Meets step g s' rest

/-- Every state the run of an action list goes through, the first one
included, satisfies `P`. -/
def Always (step : α → σ → Option σ) (P : σ → Prop) (s : σ) :
    List α → Prop
  | [] => P s
  | a :: rest => P s ∧ ∀ s', step a s = some s' → Always step P s' rest

variable {step : α → σ → Option σ} {g h : σ → α → Prop}

@[simp] theorem run_nil (s : σ) : run step s [] = some s := rfl

/-- A run of a nonempty list is one step and a run of the rest. -/
theorem run_cons_eq_some {s t : σ} {a : α} {rest : List α} :
    run step s (a :: rest) = some t
      ↔ ∃ s', step a s = some s' ∧ run step s' rest = some t := by
  rw [run]
  cases hs : step a s with
  | none => simp
  | some s' => simp

/-- Prepend an enabled step. -/
theorem run_cons {s s' t : σ} {a : α} {rest : List α}
    (hs : step a s = some s') (hrun : run step s' rest = some t) :
    run step s (a :: rest) = some t :=
  run_cons_eq_some.mpr ⟨s', hs, hrun⟩

/-- Runs split at any cut of the action list. -/
theorem run_append_eq_some {s t : σ} {as bs : List α} :
    run step s (as ++ bs) = some t
      ↔ ∃ m, run step s as = some m ∧ run step m bs = some t := by
  induction as generalizing s with
  | nil => simp
  | cons a rest ih =>
      rw [List.cons_append, run_cons_eq_some]
      constructor
      · rintro ⟨s', hs, hrun⟩
        obtain ⟨m, hm, hbs⟩ := ih.mp hrun
        exact ⟨m, run_cons hs hm, hbs⟩
      · rintro ⟨m, hm, hbs⟩
        obtain ⟨s', hs, hrest⟩ := run_cons_eq_some.mp hm
        exact ⟨s', hs, ih.mpr ⟨m, hrest, hbs⟩⟩

/-- Runs compose. -/
theorem run_append {s m t : σ} {as bs : List α}
    (ha : run step s as = some m) (hb : run step m bs = some t) :
    run step s (as ++ bs) = some t :=
  run_append_eq_some.mpr ⟨m, ha, hb⟩

/-- A run of one action is one step. -/
theorem run_singleton {s t : σ} {a : α} :
    run step s [a] = some t ↔ step a s = some t := by
  rw [run_cons_eq_some]
  constructor
  · rintro ⟨s', hs, hrun⟩
    rw [run_nil, Option.some.injEq] at hrun
    exact hrun ▸ hs
  · intro hs
    exact ⟨t, hs, rfl⟩

/-- Some run leads from one state to the other. -/
def Reaches (step : α → σ → Option σ) (s t : σ) : Prop :=
  ∃ as, run step s as = some t

theorem Reaches.refl (s : σ) : Reaches step s s := ⟨[], rfl⟩

theorem Reaches.trans {s t u : σ} (h : Reaches step s t)
    (h' : Reaches step t u) : Reaches step s u := by
  obtain ⟨as, hrun⟩ := h
  obtain ⟨bs, hrun'⟩ := h'
  exact ⟨as ++ bs, run_append hrun hrun'⟩

/-- One more step. -/
theorem Reaches.snoc {s t u : σ} {a : α} (h : Reaches step s t)
    (hu : step a t = some u) : Reaches step s u := by
  obtain ⟨as, hrun⟩ := h
  exact ⟨as ++ [a], run_append hrun (run_singleton.mpr hu)⟩

/-- A step enabled by a condition: the condition, and where it leads. -/
theorem of_guarded {p : Prop} [Decidable p] {s t : σ}
    (h : (if p then some s else none) = some t) : p ∧ t = s := by
  by_cases hp : p
  · rw [if_pos hp, Option.some.injEq] at h
    exact ⟨hp, h.symm⟩
  · rw [if_neg hp] at h
    cases h

-- =============================================================== guards

/-- A guard every step satisfies is met by every run. -/
theorem Meets.of_forall (hg : ∀ s a, g s a) (s : σ) (as : List α) :
    Meets step g s as := by
  induction as generalizing s with
  | nil => exact trivial
  | cons a rest ih => exact ⟨hg s a, fun s' _ => ih s'⟩

/-- Two guards are met together. -/
theorem Meets.and {s : σ} {as : List α} (hg : Meets step g s as)
    (hh : Meets step h s as) : Meets step (fun s a => g s a ∧ h s a) s as := by
  induction as generalizing s with
  | nil => exact trivial
  | cons a rest ih =>
      exact ⟨⟨hg.1, hh.1⟩, fun s' hs => ih (hg.2 s' hs) (hh.2 s' hs)⟩

/-- A guard on the actions alone can be added to any other. -/
theorem Meets.and_forall {p : α → Prop} {s : σ} {as : List α}
    (hm : Meets step g s as) (hp : ∀ a ∈ as, p a) :
    Meets step (fun s a => g s a ∧ p a) s as := by
  induction as generalizing s with
  | nil => exact trivial
  | cons a rest ih =>
      refine ⟨⟨hm.1, hp a (List.mem_cons_self ..)⟩, fun s' hs => ?_⟩
      exact ih (hm.2 s' hs) fun b hb => hp b (List.mem_cons_of_mem a hb)

/-- A decidable guard can be tested along a run. -/
instance Meets.decidable [∀ s a, Decidable (g s a)] (s : σ) :
    (as : List α) → Decidable (Meets step g s as)
  | [] => isTrue trivial
  | a :: rest =>
      match h : step a s with
      | none => decidable_of_iff (g s a)
          ⟨fun hg => ⟨hg, fun s' hs => by rw [h] at hs; cases hs⟩, And.left⟩
      | some s' =>
          have := Meets.decidable s' rest
          decidable_of_iff (g s a ∧ Meets step g s' rest)
            ⟨fun hm => ⟨hm.1, fun t ht => by
              rw [h, Option.some.injEq] at ht
              exact ht ▸ hm.2⟩, fun hm => ⟨hm.1, hm.2 s' h⟩⟩

-- ========================================================== invariants

/-- The guarded induction rule: a property preserved by every step that
satisfies the guard is preserved by every run whose steps all do. -/
theorem run_invariant_of_meets (P : σ → Prop)
    (hstep : ∀ s a s', P s → g s a → step a s = some s' → P s')
    {s t : σ} {as : List α} (hs : P s) (hm : Meets step g s as)
    (hrun : run step s as = some t) : P t := by
  induction as generalizing s with
  | nil =>
      rw [run_nil, Option.some.injEq] at hrun
      exact hrun ▸ hs
  | cons a rest ih =>
      obtain ⟨s', hs', hrest⟩ := run_cons_eq_some.mp hrun
      exact ih (hstep s a s' hs hm.1 hs') (hm.2 s' hs') hrest

/-- The induction rule: a property every step preserves is preserved by
every run. -/
theorem run_invariant (P : σ → Prop)
    (hstep : ∀ s a s', P s → step a s = some s' → P s')
    {s t : σ} {as : List α} (hs : P s) (hrun : run step s as = some t) :
    P t := by
  refine run_invariant_of_meets P (fun s a s' hp _ hs' => hstep s a s' hp hs')
    hs (Meets.of_forall (fun _ _ => trivial) s as) hrun

/-- The induction rule for properties that look back at what has been
done. -/
theorem run_history (P : List α → σ → Prop) {s₀ s : σ} {as : List α}
    (hstep : ∀ as s a s', P as s → step a s = some s' → P (as ++ [a]) s')
    (hstart : P [] s₀) (hrun : run step s₀ as = some s) : P as s := by
  induction as using List.reverseRecOn generalizing s with
  | nil =>
      rw [run_nil, Option.some.injEq] at hrun
      exact hrun ▸ hstart
  | append_singleton as a ih =>
      obtain ⟨m, has, hlast⟩ := run_append_eq_some.mp hrun
      exact hstep as m a s (ih has) (run_singleton.mp hlast)

/-- A guard that an invariant turns into another: where the first is met
by every step of a run, so is the second. -/
theorem Meets.of_invariant (J : σ → Prop)
    (hJ : ∀ s a, J s → g s a → h s a)
    (hstep : ∀ s a s', J s → g s a → step a s = some s' → J s')
    {s : σ} {as : List α} (hs : J s) (hm : Meets step g s as) :
    Meets step h s as := by
  induction as generalizing s with
  | nil => exact trivial
  | cons a rest ih =>
      refine ⟨hJ s a hs hm.1, fun s' hs' => ?_⟩
      exact ih (hstep s a s' hs hm.1 hs') (hm.2 s' hs')

-- =============================================================== traces

/-- What the steps of a run show, one after the other: `look` reads it off
the state before the step and the action. -/
def trace {γ : Type*} (step : α → σ → Option σ) (look : σ → α → List γ)
    (s : σ) : List α → List γ
  | [] => []
  | a :: rest =>
      look s a ++ (match step a s with
        | some s' => trace step look s' rest
        | none => [])

/-- A history that grows by what each step shows grows by the trace of
the run. -/
theorem run_trace {γ : Type*} {look : σ → α → List γ} (J : σ → Prop)
    (history : σ → List γ)
    (hstep : ∀ s a s', J s → step a s = some s' →
      J s' ∧ history s' = history s ++ look s a)
    {s t : σ} {as : List α} (hs : J s) (hrun : run step s as = some t) :
    history t = history s ++ trace step look s as := by
  induction as generalizing s with
  | nil =>
      rw [run_nil, Option.some.injEq] at hrun
      rw [trace, List.append_nil, hrun]
  | cons a rest ih =>
      obtain ⟨s', hs', hrest⟩ := run_cons_eq_some.mp hrun
      obtain ⟨hJ, hgrown⟩ := hstep s a s' hs hs'
      rw [ih hJ hrest, hgrown, trace, hs', List.append_assoc]

-- ============================================================ exactness

variable {P J : σ → Prop}

/-- What always holds holds at the start. -/
theorem Always.head {s : σ} {as : List α} (h : Always step P s as) :
    P s := by
  cases as with
  | nil => exact h
  | cons a rest => exact h.1

/-- A guarded run keeps an invariant in every state. -/
theorem always_of_meets (hP : ∀ s, J s → P s)
    (hstep : ∀ s a s', J s → g s a → step a s = some s' → J s')
    {s : σ} {as : List α} (hs : J s) (hm : Meets step g s as) :
    Always step P s as := by
  induction as generalizing s with
  | nil => exact hP s hs
  | cons a rest ih =>
      refine ⟨hP s hs, fun s' hs' => ?_⟩
      exact ih (hstep s a s' hs hm.1 hs') (hm.2 s' hs')

/-- The exact guard: where it holds the invariant is kept, and a step
that does not meet it leads out of `P`. Then a run stays in `P` if and
only if it meets the guard. -/
theorem always_iff_meets (hP : ∀ s, J s → P s)
    (hstep : ∀ s a s', J s → g s a → step a s = some s' → J s')
    (hfail : ∀ s a s', J s → ¬ g s a → step a s = some s' → ¬ P s')
    {s t : σ} {as : List α} (hs : J s) (hrun : run step s as = some t) :
    Always step P s as ↔ Meets step g s as := by
  refine ⟨fun halways => ?_, always_of_meets hP hstep hs⟩
  induction as generalizing s with
  | nil => exact trivial
  | cons a rest ih =>
      obtain ⟨s', hs', hrest⟩ := run_cons_eq_some.mp hrun
      have hg : g s a := by
        by_contra hg
        exact hfail s a s' hs hg hs' (halways.2 s' hs').head
      refine ⟨hg, fun s₁ hs₁ => ?_⟩
      rw [hs'] at hs₁
      injection hs₁ with hs₁
      subst hs₁
      exact ih (hstep s a s' hs hg hs') hrest (halways.2 s' hs')

-- ========================================================= simulation

variable {τ β γ : Type*} {spec : β → τ → Option τ}

/-- Where every guarded step is matched by a run of another system that
shows the same, so is every guarded run. -/
theorem run_simulated (R : σ → τ → Prop) (look : α → List γ)
    (look' : β → List γ)
    (hstep : ∀ s a s' t, R s t → g s a → step a s = some s' →
      ∃ bs t', run spec t bs = some t' ∧ R s' t'
        ∧ bs.flatMap look' = look a)
    {s s' : σ} {t : τ} {as : List α} (hst : R s t) (hm : Meets step g s as)
    (hrun : run step s as = some s') :
    ∃ bs t', run spec t bs = some t' ∧ R s' t'
      ∧ bs.flatMap look' = as.flatMap look := by
  induction as generalizing s t with
  | nil =>
      rw [run_nil, Option.some.injEq] at hrun
      exact ⟨[], t, rfl, hrun ▸ hst, rfl⟩
  | cons a rest ih =>
      obtain ⟨s₁, hs₁, hrest⟩ := run_cons_eq_some.mp hrun
      obtain ⟨bs, t₁, hbs, hst₁, hlook⟩ := hstep s a s₁ t hst hm.1 hs₁
      obtain ⟨bs', t', hbs', hst', hlook'⟩ := ih hst₁ (hm.2 s₁ hs₁) hrest
      refine ⟨bs ++ bs', t', run_append hbs hbs', hst', ?_⟩
      rw [List.flatMap_append, hlook, hlook', List.flatMap_cons]

end Lts
