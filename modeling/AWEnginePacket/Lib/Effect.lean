/-
Stateful computations that may fail: what they leave behind.

`EStateM ε σ` keeps the state it reached when it fails, as a C++
function that throws keeps the assignments it already made. `after` is
that state, whichever way the computation ended.

A `Frame` is a reflexive and transitive relation between the state
before and the state after — "these fields are untouched", "this list
has only grown". `Keeps F m` says that `m` respects it from every
state and on both exits. A frame is proved for the primitives and
composes through the monad, so a frame of a long method is assembled
from those of its calls and never needs the method unfolded into its
branches.

`Ignores f m` is the converse concern: `m` neither reads nor writes what
`f` changes, so it does the same before and after that change. It
composes in the same way.
-/
import Mathlib.Logic.Basic

namespace Effect

variable {ε σ α β : Type}

-- ========================================================== final states

/-- The state a computation leaves, on return and on failure alike. -/
def after (m : EStateM ε σ α) (s : σ) : σ :=
  match m.run s with
  | .ok _ s' => s'
  | .error _ s' => s'

theorem after_of_ok {m : EStateM ε σ α} {s s' : σ} {a : α}
    (h : m.run s = .ok a s') : after m s = s' := by
  rw [after, h]

theorem after_of_error {m : EStateM ε σ α} {s s' : σ} {e : ε}
    (h : m.run s = .error e s') : after m s = s' := by
  rw [after, h]

-- =========================================================== sequencing

/-- The first half returned: the second half runs from where it left. -/
theorem run_bind_of_ok {m : EStateM ε σ α} {f : α → EStateM ε σ β}
    {s s' : σ} {a : α} (h : m.run s = .ok a s') :
    (m >>= f).run s = (f a).run s' := by
  rw [EStateM.run_bind, h]

/-- The first half failed: so does the whole. -/
theorem run_bind_of_error {m : EStateM ε σ α} {f : α → EStateM ε σ β}
    {s s' : σ} {e : ε} (h : m.run s = .error e s') :
    (m >>= f).run s = .error e s' := by
  rw [EStateM.run_bind, h]

/-- A sequence returned: both halves did. -/
theorem of_run_bind_ok {m : EStateM ε σ α} {f : α → EStateM ε σ β}
    {s t : σ} {b : β} (h : (m >>= f).run s = .ok b t) :
    ∃ a s', m.run s = .ok a s' ∧ (f a).run s' = .ok b t := by
  rw [EStateM.run_bind] at h
  cases hm : m.run s with
  | ok a s' =>
      rw [hm] at h
      exact ⟨a, s', rfl, h⟩
  | error e s' =>
      rw [hm] at h
      cases h

/-- Nothing was thrown: the handler does not run. -/
theorem run_tryCatch_of_ok {m : EStateM ε σ α} {handle : ε → EStateM ε σ α}
    {s s' : σ} {a : α} (h : m.run s = .ok a s') :
    (tryCatch m handle).run s = .ok a s' := by
  show EStateM.tryCatch m handle s = _
  rw [EStateM.run] at h
  unfold EStateM.tryCatch
  rw [h]

/-- The handler runs from the state the failure left. -/
theorem run_tryCatch_of_error {m : EStateM ε σ α}
    {handle : ε → EStateM ε σ α} {s s' : σ} {e : ε}
    (h : m.run s = .error e s') :
    (tryCatch m handle).run s = (handle e).run s' := by
  show EStateM.tryCatch m handle s = _
  rw [EStateM.run] at h
  unfold EStateM.tryCatch
  rw [h]
  rfl

-- =============================================================== frames

/-- A relation between the state before and the state after that holds
of doing nothing and of doing one thing after another. -/
structure Frame (σ : Type) where
  rel : σ → σ → Prop
  refl : ∀ s, rel s s
  trans : ∀ {s t u}, rel s t → rel t u → rel s u

/-- The computation respects the frame from every state, whichever way
it ends. -/
def Keeps (F : Frame σ) (m : EStateM ε σ α) : Prop :=
  ∀ s, F.rel s (after m s)

variable {F : Frame σ}

theorem keeps_pure (a : α) : Keeps F (pure a : EStateM ε σ α) :=
  fun s => F.refl s

theorem keeps_get : Keeps F (get : EStateM ε σ σ) := fun s => F.refl s

theorem keeps_throw (e : ε) : Keeps F (throw e : EStateM ε σ α) :=
  fun s => F.refl s

/-- An assignment respects the frame if it does from every state. -/
theorem keeps_modify {f : σ → σ} (h : ∀ s, F.rel s (f s)) :
    Keeps F (modify f : EStateM ε σ PUnit) := h

/-- Frames compose through the monad. -/
theorem Keeps.bind {m : EStateM ε σ α} {f : α → EStateM ε σ β}
    (hm : Keeps F m) (hf : ∀ a, Keeps F (f a)) : Keeps F (m >>= f) := by
  intro s
  have hs := hm s
  cases hrun : m.run s with
  | ok a s' =>
      rw [after_of_ok hrun] at hs
      have hs' := hf a s'
      rw [after] at hs' ⊢
      rw [run_bind_of_ok hrun]
      exact F.trans hs hs'
  | error e s' =>
      rw [after_of_error hrun] at hs
      rw [after_of_error (run_bind_of_error hrun)]
      exact hs

/-- A branch respects the frame if both sides do. -/
theorem Keeps.ite {c : Prop} [Decidable c] {m m' : EStateM ε σ α}
    (hm : Keeps F m) (hm' : Keeps F m') :
    Keeps F (if c then m else m') := by
  split
  · exact hm
  · exact hm'

/-- A step taken only under a condition. -/
theorem Keeps.when {c : Prop} [Decidable c] {m : EStateM ε σ α}
    {k : α → EStateM ε σ β} {k' : EStateM ε σ β}
    (hm : Keeps F m) (hk : ∀ a, Keeps F (k a)) (hk' : Keeps F k') :
    Keeps F (if c then m >>= k else k') :=
  .ite (hm.bind hk) hk'

/-- A check that throws. -/
theorem Keeps.check {c : Prop} [Decidable c] {e : ε}
    {k : α → EStateM ε σ β} {k' : EStateM ε σ β} (hk' : Keeps F k') :
    Keeps F (if c then throw e >>= k else k') :=
  .ite (fun s => F.refl s) hk'

/-- A loop respects the frame if its body does. -/
theorem Keeps.forM {f : β → EStateM ε σ PUnit} (hf : ∀ x, Keeps F (f x))
    (xs : List β) : Keeps F (xs.forM f) := by
  induction xs with
  | nil => exact keeps_pure PUnit.unit
  | cons x xs ih => exact (hf x).bind fun _ => ih

/-- A wider frame. -/
theorem Keeps.mono {G : Frame σ} (h : ∀ {s t}, F.rel s t → G.rel s t)
    {m : EStateM ε σ α} (hm : Keeps F m) : Keeps G m := fun s => h (hm s)

/-- On return, the frame relates the two states. -/
theorem Keeps.of_ok {m : EStateM ε σ α} (h : Keeps F m) {s s' : σ} {a : α}
    (hrun : m.run s = .ok a s') : F.rel s s' := by
  have := h s
  rwa [after_of_ok hrun] at this

/-- On failure, the frame relates the two states. -/
theorem Keeps.of_error {m : EStateM ε σ α} (h : Keeps F m) {s s' : σ}
    {e : ε} (hrun : m.run s = .error e s') : F.rel s s' := by
  have := h s
  rwa [after_of_error hrun] at this

-- ============================================================= failures

/-- Whatever the computation throws satisfies `E`. -/
def Throws (E : ε → Prop) (m : EStateM ε σ α) : Prop :=
  ∀ s e s', m.run s = .error e s' → E e

variable {E : ε → Prop}

theorem throws_pure (a : α) : Throws E (pure a : EStateM ε σ α) := by
  intro s e s' h
  cases h

theorem throws_get : Throws E (get : EStateM ε σ σ) := by
  intro s e s' h
  cases h

theorem throws_modify (f : σ → σ) :
    Throws E (modify f : EStateM ε σ PUnit) := by
  intro s e s' h
  cases h

theorem throws_throw {e : ε} (h : E e) :
    Throws E (throw e : EStateM ε σ α) := by
  intro s e' s' hrun
  injection hrun with he
  exact he ▸ h

/-- What a sequence throws, one of its halves does. -/
theorem Throws.bind {m : EStateM ε σ α} {f : α → EStateM ε σ β}
    (hm : Throws E m) (hf : ∀ a, Throws E (f a)) : Throws E (m >>= f) := by
  intro s e s' h
  cases hrun : m.run s with
  | ok a s₁ =>
      rw [run_bind_of_ok hrun] at h
      exact hf a s₁ e s' h
  | error e₁ s₁ =>
      rw [run_bind_of_error hrun] at h
      injection h with he
      exact he ▸ hm s e₁ s₁ hrun

theorem Throws.ite {c : Prop} [Decidable c] {m m' : EStateM ε σ α}
    (hm : Throws E m) (hm' : Throws E m') :
    Throws E (if c then m else m') := by
  split
  · exact hm
  · exact hm'

/-- A step taken only under a condition. -/
theorem Throws.when {c : Prop} [Decidable c] {m : EStateM ε σ α}
    {k : α → EStateM ε σ β} {k' : EStateM ε σ β}
    (hm : Throws E m) (hk : ∀ a, Throws E (k a)) (hk' : Throws E k') :
    Throws E (if c then m >>= k else k') :=
  .ite (hm.bind hk) hk'

/-- A loop throws what its body does. -/
theorem Throws.forM {f : β → EStateM ε σ PUnit} (hf : ∀ x, Throws E (f x))
    (xs : List β) : Throws E (xs.forM f) := by
  induction xs with
  | nil => exact throws_pure PUnit.unit
  | cons x xs ih => exact (hf x).bind fun _ => ih

/-- What throws nothing returns. -/
theorem Throws.run_ok {m : EStateM ε σ α} (h : Throws (fun _ => False) m)
    (s : σ) : ∃ a s', m.run s = .ok a s' := by
  cases hrun : m.run s with
  | ok a s' => exact ⟨a, s', rfl⟩
  | error e s' => exact absurd (h s e s' hrun) id

-- =========================================================== invariants

/-- From a state in `I` the computation ends in one, whichever way it
ends, and what it throws satisfies `E`. -/
def Maintains (I : σ → Prop) (E : ε → Prop) (m : EStateM ε σ α) : Prop :=
  ∀ s, I s → (∀ a s', m.run s = .ok a s' → I s')
    ∧ ∀ e s', m.run s = .error e s' → I s' ∧ E e

variable {I : σ → Prop}

theorem maintains_pure (a : α) :
    Maintains I E (pure a : EStateM ε σ α) := by
  intro s hs
  refine ⟨fun a' s' h => ?_, nofun⟩
  cases h
  exact hs

theorem maintains_get : Maintains I E (get : EStateM ε σ σ) := by
  intro s hs
  refine ⟨fun a' s' h => ?_, nofun⟩
  cases h
  exact hs

theorem maintains_throw {e : ε} (h : E e) :
    Maintains I E (throw e : EStateM ε σ α) := by
  intro s hs
  refine ⟨nofun, fun e' s' hrun => ?_⟩
  cases hrun
  exact ⟨hs, h⟩

/-- Invariants compose through the monad. -/
theorem Maintains.bind {m : EStateM ε σ α} {f : α → EStateM ε σ β}
    (hm : Maintains I E m) (hf : ∀ a, Maintains I E (f a)) :
    Maintains I E (m >>= f) := by
  intro s hs
  cases hrun : m.run s with
  | ok a s₁ =>
      rw [run_bind_of_ok hrun]
      exact hf a s₁ ((hm s hs).1 a s₁ hrun)
  | error e₁ s₁ =>
      rw [run_bind_of_error hrun]
      refine ⟨nofun, fun e s' h => ?_⟩
      cases h
      exact (hm s hs).2 e₁ s₁ hrun

/-- A computation that starts by looking at its state. -/
theorem Maintains.get_bind {f : σ → EStateM ε σ β}
    (hf : ∀ s, I s → (∀ a s', (f s).run s = .ok a s' → I s')
      ∧ ∀ e s', (f s).run s = .error e s' → I s' ∧ E e) :
    Maintains I E (get >>= f) := by
  intro s hs
  rw [EStateM.run_bind, EStateM.run_get]
  exact hf s hs

theorem Maintains.ite {c : Prop} [Decidable c] {m m' : EStateM ε σ α}
    (hm : Maintains I E m) (hm' : Maintains I E m') :
    Maintains I E (if c then m else m') := by
  split
  · exact hm
  · exact hm'

/-- A check that throws. -/
theorem Maintains.check {c : Prop} [Decidable c] {e : ε}
    {k : α → EStateM ε σ β} {k' : EStateM ε σ β} (he : E e)
    (hk' : Maintains I E k') :
    Maintains I E (if c then throw e >>= k else k') := by
  refine .ite ?_ hk'
  intro s hs
  rw [run_bind_of_error (rfl : (throw e : EStateM ε σ α).run s = .error e s)]
  refine ⟨nofun, fun e' s' hrun => ?_⟩
  cases hrun
  exact ⟨hs, he⟩

/-- A loop maintains what its body does. -/
theorem Maintains.forM {f : β → EStateM ε σ PUnit}
    (hf : ∀ x, Maintains I E (f x)) (xs : List β) :
    Maintains I E (xs.forM f) := by
  induction xs with
  | nil => exact maintains_pure PUnit.unit
  | cons x xs ih => exact (hf x).bind fun _ => ih

-- ====================================================== what is ignored

/-- An outcome, with its state changed. -/
def mapState (f : σ → σ) : EStateM.Result ε σ α → EStateM.Result ε σ α
  | .ok a s => .ok a (f s)
  | .error e s => .error e (f s)

/-- The computation neither reads nor writes what `f` changes. -/
def Ignores (f : σ → σ) (m : EStateM ε σ α) : Prop :=
  ∀ s, m.run (f s) = mapState f (m.run s)

variable {f : σ → σ}

theorem ignores_pure (a : α) : Ignores f (pure a : EStateM ε σ α) :=
  fun _ => rfl

theorem ignores_throw (e : ε) : Ignores f (throw e : EStateM ε σ α) :=
  fun _ => rfl

/-- An assignment elsewhere. -/
theorem ignores_modify {g : σ → σ} (h : ∀ s, g (f s) = f (g s)) :
    Ignores f (modify g : EStateM ε σ PUnit) := by
  intro s
  show EStateM.Result.ok _ (g (f s)) = .ok _ (f (g s))
  rw [h]

/-- A sequence of two. -/
theorem Ignores.bind {m : EStateM ε σ α} {k : α → EStateM ε σ β}
    (hm : Ignores f m) (hk : ∀ a, Ignores f (k a)) : Ignores f (m >>= k) := by
  intro s
  have hs := hm s
  cases hrun : m.run s with
  | ok a s' =>
      rw [hrun] at hs
      rw [run_bind_of_ok hs, run_bind_of_ok hrun]
      exact hk a s'
  | error e s' =>
      rw [hrun] at hs
      rw [run_bind_of_error hs, run_bind_of_error hrun]
      rfl

/-- A computation that starts by looking at its state, and not at what
`f` changes. -/
theorem Ignores.get_bind {k : σ → EStateM ε σ β} (hsame : ∀ s, k (f s) = k s)
    (hk : ∀ s, Ignores f (k s)) : Ignores f (get >>= k) := by
  intro s
  rw [EStateM.run_bind, EStateM.run_bind, EStateM.run_get, EStateM.run_get]
  dsimp only
  rw [hsame]
  exact hk s s

theorem Ignores.ite {c : Prop} [Decidable c] {m m' : EStateM ε σ α}
    (hm : Ignores f m) (hm' : Ignores f m') :
    Ignores f (if c then m else m') := by
  split
  · exact hm
  · exact hm'

/-- A step taken only under a condition. -/
theorem Ignores.when {c : Prop} [Decidable c] {m : EStateM ε σ α}
    {k : α → EStateM ε σ β} {k' : EStateM ε σ β} (hm : Ignores f m)
    (hk : ∀ a, Ignores f (k a)) (hk' : Ignores f k') :
    Ignores f (if c then m >>= k else k') :=
  .ite (hm.bind hk) hk'

/-- A check that throws. -/
theorem Ignores.check {c : Prop} [Decidable c] {e : ε}
    {k : α → EStateM ε σ β} {k' : EStateM ε σ β} (hk' : Ignores f k') :
    Ignores f (if c then throw e >>= k else k') :=
  .ite (fun _ => rfl) hk'

end Effect
