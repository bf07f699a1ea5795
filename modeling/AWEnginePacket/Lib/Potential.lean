/-
Runs that pay for every step.

A system has a potential: a number that every step of some kind lowers,
wherever an invariant holds. Then no run of such steps is longer than
the potential it starts from (`length_le`), in whatever order they come;
and where other steps come in between, which do not raise it, no run has
more of such steps (`countP_le`).

Where the system is made of parts, each at a place of its own, the
potential is a sum over the parts (`total`), and a step that moves one of
them changes one summand (`total_update`).
-/
import AWEnginePacket.Lib.Lts
import Mathlib.Algebra.BigOperators.Group.Finset.Basic
import Mathlib.Logic.Function.Basic

namespace Potential

variable {σ α : Type*} {step : α → σ → Option σ} {kind : α → Prop}

/-- A run in which only steps of some kind lower the potential, and none
raises it: they are no more than the potential at the start. -/
theorem countP_le (p : α → Bool) (J : σ → Prop) (potential : σ → Nat)
    (hstep : ∀ s a s', J s → kind a → step a s = some s' →
      J s' ∧ potential s' + (p a).toNat ≤ potential s)
    {s t : σ} {as : List α} (hs : J s) (hkind : ∀ a ∈ as, kind a)
    (hrun : Lts.run step s as = some t) :
    J t ∧ as.countP p + potential t ≤ potential s := by
  induction as generalizing s with
  | nil =>
      rw [Lts.run_nil, Option.some.injEq] at hrun
      subst hrun
      exact ⟨hs, (Nat.zero_add _).le⟩
  | cons a rest ih =>
      obtain ⟨s', hs', hrest⟩ := Lts.run_cons_eq_some.mp hrun
      obtain ⟨hJ, hle⟩ := hstep s a s' hs (hkind a (List.mem_cons_self ..)) hs'
      obtain ⟨ht, hcount⟩ := ih hJ
        (fun b hb => hkind b (List.mem_cons_of_mem a hb)) hrest
      refine ⟨ht, ?_⟩
      have hone : (if p a = true then 1 else 0) = (p a).toNat := by
        cases p a <;> rfl
      rw [List.countP_cons, hone]
      omega

/-- A run of steps that each lower the potential. -/
theorem length_le (J : σ → Prop) (potential : σ → Nat)
    (hstep : ∀ s a s', J s → kind a → step a s = some s' →
      J s' ∧ potential s' < potential s)
    {s t : σ} {as : List α} (hs : J s) (hkind : ∀ a ∈ as, kind a)
    (hrun : Lts.run step s as = some t) :
    J t ∧ as.length + potential t ≤ potential s := by
  have h := countP_le (fun _ => true) J potential hstep hs hkind hrun
  rwa [List.countP_true] at h

variable {θ π : Type*} {parts : Finset θ} {t : θ}

/-- The potential of many parts. -/
def total (parts : Finset θ) (weight : π → Nat) (place : θ → π) : Nat :=
  ∑ t ∈ parts, weight (place t)

/-- One part moves. -/
theorem total_update [DecidableEq θ] (weight : π → Nat) (place : θ → π)
    (p : π) (ht : t ∈ parts) :
    total parts weight (Function.update place t p) + weight (place t)
      = total parts weight place + weight p := by
  have hothers : ∑ u ∈ parts.erase t, weight (Function.update place t p u)
      = ∑ u ∈ parts.erase t, weight (place u) := by
    refine Finset.sum_congr rfl fun u hu => ?_
    rw [Function.update_of_ne (Finset.ne_of_mem_erase hu)]
  rw [total, total,
    ← Finset.add_sum_erase parts (fun u => weight (place u)) ht,
    ← Finset.add_sum_erase parts
      (fun u => weight (Function.update place t p u)) ht,
    hothers, Function.update_self]
  omega

end Potential
