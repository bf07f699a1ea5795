/-
Machines that answer, and when one refines another.

A machine is a function `step : α → σ → ρ × σ`: a call takes the state
to an answer and the next state. Its `trace` from a state is the list of
answers to a list of calls, all a user can see of it. `Simulates R`
relates two machines over the same calls: from related states, equal
answers and related states again. The induction over the calls is done
here once: machines that start related answer every list of calls alike
(`trace_eq`).
-/
import Mathlib.Data.List.Basic

namespace Refinement

variable {α ρ σ τ : Type*}

/-- The answers to a list of calls. -/
def trace (step : α → σ → ρ × σ) (s : σ) : List α → List ρ
  | [] => []
  | a :: rest => (step a s).1 :: trace step (step a s).2 rest

/-- From related states, a call answers alike and leads to related
states. -/
def Simulates (R : σ → τ → Prop) (step : α → σ → ρ × σ)
    (spec : α → τ → ρ × τ) : Prop :=
  ∀ a s t, R s t →
    (step a s).1 = (spec a t).1 ∧ R (step a s).2 (spec a t).2

variable {R : σ → τ → Prop} {step : α → σ → ρ × σ} {spec : α → τ → ρ × τ}

/-- Related machines cannot be told apart by their answers. -/
theorem Simulates.trace_eq (h : Simulates R step spec) {s : σ} {t : τ}
    (hst : R s t) (calls : List α) :
    trace step s calls = trace spec t calls := by
  induction calls generalizing s t with
  | nil => rfl
  | cons a rest ih =>
      obtain ⟨hanswer, hnext⟩ := h a s t hst
      rw [trace, trace, hanswer, ih hnext]

end Refinement
