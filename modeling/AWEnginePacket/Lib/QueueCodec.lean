/-
Writers and readers over a queue of units.

A concrete buffer represents a queue: `View.holds s l` says that the
state `s` has exactly the units `l` left in it, and `cap` bounds how
many it can hold. Against such a view a computation can be a writer
(`Emits m out`: it returns and appends `out`) or a reader
(`Consumes m inp a`: with `inp` in front it returns `a` and takes
exactly `inp`). Both compose, so the specification of a packet is the
concatenation of those of its fields, and a round trip is a writer and
a reader that agree on the units between them.

What a reader does to a queue that ends too early is a third
specification: it `Starves`. A reader that starves on whatever is cut
off what it consumes `Rejects` it, and that composes too.
-/
import AWEnginePacket.Lib.Effect
import Mathlib.Data.List.Basic

namespace QueueCodec

open Effect

/-- How a state represents a queue of units, and how many fit. -/
structure View (σ β : Type) where
  holds : σ → List β → Prop
  cap : Nat

variable {ε σ β α γ : Type} {V : View σ β}

/-- A writer: as long as there is room, it returns and appends exactly
`out`. -/
def Emits (V : View σ β) (m : EStateM ε σ PUnit) (out : List β) : Prop :=
  ∀ s l, V.holds s l → l.length + out.length ≤ V.cap →
    ∃ s', m.run s = .ok ⟨⟩ s' ∧ V.holds s' (l ++ out)

/-- A reader: with `inp` in front of the queue it returns `a` and takes
exactly `inp`. -/
def Consumes (V : View σ β) (m : EStateM ε σ α) (inp : List β) (a : α) :
    Prop :=
  ∀ s l, V.holds s (inp ++ l) →
    ∃ s', m.run s = .ok a s' ∧ V.holds s' l

-- ============================================================== writers

theorem emits_nil : Emits V (pure ⟨⟩ : EStateM ε σ PUnit) [] := by
  intro s l hs _
  exact ⟨s, rfl, by rwa [List.append_nil]⟩

/-- Writers in sequence append in sequence. -/
theorem Emits.seq {m : EStateM ε σ PUnit} {k : PUnit → EStateM ε σ PUnit}
    {out out' : List β} (hm : Emits V m out) (hk : Emits V (k ⟨⟩) out') :
    Emits V (m >>= k) (out ++ out') := by
  intro s l hs hroom
  rw [List.length_append] at hroom
  obtain ⟨s₁, hrun, hs₁⟩ := hm s l hs (by omega)
  obtain ⟨s₂, hrun', hs₂⟩ := hk s₁ (l ++ out) hs₁
    (by rw [List.length_append]; omega)
  refine ⟨s₂, ?_, ?_⟩
  · rw [run_bind_of_ok hrun, hrun']
  · rw [← List.append_assoc]
    exact hs₂

/-- A loop over a list of writers. -/
theorem Emits.forM {f : γ → EStateM ε σ PUnit} {g : γ → List β}
    {xs : List γ} (h : ∀ x ∈ xs, Emits V (f x) (g x)) :
    Emits V (xs.forM f) (xs.flatMap g) := by
  induction xs with
  | nil => exact emits_nil
  | cons x xs ih =>
      have hx := h x (List.mem_cons_self ..)
      have hxs := ih fun y hy => h y (List.mem_cons_of_mem _ hy)
      exact hx.seq hxs

/-- What a writer does if it returns: it appends exactly `out`. It may
throw, for want of room or any other reason. -/
def Appends (V : View σ β) (m : EStateM ε σ PUnit) (out : List β) : Prop :=
  ∀ s l s', V.holds s l → m.run s = .ok ⟨⟩ s' → V.holds s' (l ++ out)

theorem appends_nil : Appends V (pure ⟨⟩ : EStateM ε σ PUnit) [] := by
  intro s l s' hs hrun
  cases hrun
  rwa [List.append_nil]

theorem Appends.seq {m : EStateM ε σ PUnit} {k : PUnit → EStateM ε σ PUnit}
    {out out' : List β} (hm : Appends V m out) (hk : Appends V (k ⟨⟩) out') :
    Appends V (m >>= k) (out ++ out') := by
  intro s l s' hs hrun
  obtain ⟨⟨⟩, s₁, hrun₁, hrun₂⟩ := of_run_bind_ok hrun
  rw [← List.append_assoc]
  exact hk s₁ _ s' (hm s l s₁ hs hrun₁) hrun₂

theorem Appends.forM {f : γ → EStateM ε σ PUnit} {g : γ → List β}
    {xs : List γ} (h : ∀ x ∈ xs, Appends V (f x) (g x)) :
    Appends V (xs.forM f) (xs.flatMap g) := by
  induction xs with
  | nil => exact appends_nil
  | cons x xs ih =>
      have hx := h x (List.mem_cons_self ..)
      have hxs := ih fun y hy => h y (List.mem_cons_of_mem _ hy)
      exact hx.seq hxs

/-- A writer with room appends what it appends whenever it returns. -/
theorem Emits.of_appends {m : EStateM ε σ PUnit} {out out' : List β} {s : σ}
    (h : Emits V m out) (h' : Appends V m out') (hs : V.holds s [])
    (hroom : out.length ≤ V.cap) :
    ∃ s', V.holds s' out ∧ V.holds s' out' := by
  obtain ⟨s', hrun, hs'⟩ := h s [] hs (by rwa [List.length_nil, Nat.zero_add])
  exact ⟨s', hs', h' s [] s' hs hrun⟩

-- ============================================================== readers

theorem consumes_pure (a : α) : Consumes V (pure a : EStateM ε σ α) [] a :=
  fun s _ hs => ⟨s, rfl, hs⟩

/-- Readers in sequence take in sequence, the second knowing what the
first returned. -/
theorem Consumes.bind {m : EStateM ε σ α} {k : α → EStateM ε σ γ}
    {inp inp' : List β} {a : α} {c : γ} (hm : Consumes V m inp a)
    (hk : Consumes V (k a) inp' c) :
    Consumes V (m >>= k) (inp ++ inp') c := by
  intro s l hs
  rw [List.append_assoc] at hs
  obtain ⟨s₁, hrun, hs₁⟩ := hm s (inp' ++ l) hs
  obtain ⟨s₂, hrun', hs₂⟩ := hk s₁ l hs₁
  refine ⟨s₂, ?_, hs₂⟩
  rw [run_bind_of_ok hrun, hrun']

/-- A last step that takes nothing more. -/
theorem Consumes.bind_nil {m : EStateM ε σ α} {k : α → EStateM ε σ γ}
    {inp : List β} {a : α} {c : γ} (hm : Consumes V m inp a)
    (hk : Consumes V (k a) [] c) : Consumes V (m >>= k) inp c := by
  have h := hm.bind hk
  rwa [List.append_nil] at h

/-- A last step that only computes. -/
theorem Consumes.bind_pure {m : EStateM ε σ α} {f : α → γ} {inp : List β}
    {a : α} (hm : Consumes V m inp a) :
    Consumes V (m >>= fun x => pure (f x)) inp (f a) :=
  hm.bind_nil (consumes_pure (f a))

/-- What a reader takes is determined by the units, not by how they
were described. -/
theorem Consumes.of_eq {m : EStateM ε σ α} {inp inp' : List β} {a b : α}
    (hm : Consumes V m inp a) (hi : inp = inp') (ha : a = b) :
    Consumes V m inp' b := hi ▸ ha ▸ hm

/-- A reader returns one value for what it takes. -/
theorem Consumes.unique {m : EStateM ε σ α} {inp : List β} {a b : α} {s : σ}
    (h : Consumes V m inp a) (h' : Consumes V m inp b)
    (hs : V.holds s inp) : a = b := by
  rw [← List.append_nil inp] at hs
  obtain ⟨s₁, hrun, -⟩ := h s [] hs
  obtain ⟨s₂, hrun', -⟩ := h' s [] hs
  rw [hrun] at hrun'
  cases hrun'
  rfl

-- ============================================================= starving

section starving

variable {E : ε → Prop} {m : EStateM ε σ α} {k : α → EStateM ε σ γ}
  {inp inp' l : List β} {a : α}

/-- A reader that gets no more than `l` throws, something of `E`, and
leaves a queue. -/
def Starves (V : View σ β) (E : ε → Prop) (m : EStateM ε σ α)
    (l : List β) : Prop :=
  ∀ s, V.holds s l → ∃ e s' l', m.run s = .error e s' ∧ E e ∧ V.holds s' l'

/-- A reader that starves on every strict prefix of `inp`. -/
def Rejects (V : View σ β) (E : ε → Prop) (m : EStateM ε σ α)
    (inp : List β) : Prop :=
  ∀ cut, cut <+: inp → cut ≠ inp → Starves V E m cut

/-- There is nothing to cut off. -/
theorem rejects_nil : Rejects V E m [] :=
  fun _ hcut hne => absurd (List.prefix_nil.mp hcut) hne

theorem Starves.bind (h : Starves V E m l) : Starves V E (m >>= k) l := by
  intro s hs
  obtain ⟨e, s', l', hrun, he, hs'⟩ := h s hs
  exact ⟨e, s', l', run_bind_of_error hrun, he, hs'⟩

/-- The second of two readers starves on what the first has left. -/
theorem Consumes.bind_starves (hm : Consumes V m inp a)
    (hk : Starves V E (k a) l) : Starves V E (m >>= k) (inp ++ l) := by
  intro s hs
  obtain ⟨s₁, hrun, hs₁⟩ := hm s l hs
  obtain ⟨e, s', l', hrun', he, hs'⟩ := hk s₁ hs₁
  refine ⟨e, s', l', ?_, he, hs'⟩
  rw [run_bind_of_ok hrun, hrun']

/-- Cut off a concatenation, what is left ends in its first part or
behind it. -/
theorem prefix_append_cases {cut : List β} (h : cut <+: inp ++ inp') :
    (cut <+: inp ∧ cut ≠ inp) ∨ ∃ cut', cut = inp ++ cut' ∧ cut' <+: inp' := by
  by_cases hin : inp <+: cut
  · obtain ⟨cut', rfl⟩ := hin
    exact .inr ⟨cut', rfl, (List.prefix_append_right_inj inp).mp h⟩
  · rcases List.prefix_or_prefix_of_prefix h (List.prefix_append inp inp')
      with hcut | hcut
    · refine .inl ⟨hcut, ?_⟩
      rintro rfl
      exact hin (List.prefix_refl cut)
    · exact absurd hcut hin

/-- Readers in sequence reject what is cut off what they consume. -/
theorem Rejects.bind (hr : Rejects V E m inp) (hm : Consumes V m inp a)
    (hk : Rejects V E (k a) inp') : Rejects V E (m >>= k) (inp ++ inp') := by
  intro cut hcut hne
  rcases prefix_append_cases hcut with ⟨hfirst, hne'⟩ | ⟨cut', rfl, hcut'⟩
  · exact (hr cut hfirst hne').bind
  · apply hm.bind_starves
    apply hk cut' hcut'
    rintro rfl
    exact hne rfl

/-- A last step adds nothing to cut off. -/
theorem Rejects.bind_right (hr : Rejects V E m inp) :
    Rejects V E (m >>= k) inp :=
  fun cut hcut hne => (hr cut hcut hne).bind

end starving

end QueueCodec
