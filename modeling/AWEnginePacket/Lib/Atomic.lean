/-
Objects that many threads use at once.

A sequential object is a function `spec`: an operation on a state gives
an answer and the next state, or nothing, where the operation has to
wait or is not defined. The atomic object made of it (`step`) serves any
number of threads: a thread calls an operation, the operation is
performed at one moment between the call and its answer, and the answer
is returned. Its `history` is what its users see, the calls and answers
in the order they happened; `order` is the operations in the order they
were performed.

A history is linearizable if the atomic object has it. What this means
for the users is `legal_of_reaches`: the operations, in the one order in
which they were performed, are a run of the sequential object from its
start, every thread gets the answers of its own operations in that order,
and no operation is in it before it was called (`Expects.prefixes`).
-/
import AWEnginePacket.Lib.Lts
import Mathlib.Logic.Function.Basic

namespace Atomic

variable {θ S Op Ret : Type*}

/-- Where a thread is with its operation. -/
inductive Status (Op Ret : Type*)
  | idle
  | called (op : Op)
  | performed (r : Ret)

/-- What a user sees. -/
inductive Event (θ Op Ret : Type*)
  | call (t : θ) (op : Op)
  | answer (t : θ) (r : Ret)

/-- An atomic object and the threads that use it. -/
structure Object (θ S Op Ret : Type*) where
  state : S
  status : θ → Status Op Ret := fun _ => .idle
  order : List (θ × Op × Ret) := []
  history : List (Event θ Op Ret) := []

/-- A thread calls, its operation is performed, it has its answer. -/
inductive Action (θ Op : Type*)
  | call (t : θ) (op : Op)
  | perform (t : θ)
  | answer (t : θ)

/-- The object at its start. -/
def start (s : S) : Object θ S Op Ret := { state := s }

variable [DecidableEq θ] (spec : Op → S → Option (Ret × S))

/-- One step, where it is enabled. -/
def step (a : Action θ Op) (o : Object θ S Op Ret) :
    Option (Object θ S Op Ret) :=
  match a with
  | .call t op =>
      match o.status t with
      | .idle => some { o with
          status := Function.update o.status t (.called op)
          history := o.history ++ [.call t op] }
      | _ => none
  | .perform t =>
      match o.status t with
      | .called op =>
          match spec op o.state with
          | some (r, s) => some { o with
              state := s
              status := Function.update o.status t (.performed r)
              order := o.order ++ [(t, op, r)] }
          | none => none
      | _ => none
  | .answer t =>
      match o.status t with
      | .performed r => some { o with
          status := Function.update o.status t .idle
          history := o.history ++ [.answer t r] }
      | _ => none

/-- The atomic object has this history. -/
def Linearizable (s : S) (h : List (Event θ Op Ret)) : Prop :=
  ∃ o, Lts.Reaches (step spec) (start s) o ∧ o.history = h

/-- A run of the sequential object. -/
def Legal : S → List (θ × Op × Ret) → S → Prop
  | s, [], s' => s = s'
  | s, (_, op, r) :: rest, s' =>
      ∃ s₁, spec op s = some (r, s₁) ∧ Legal s₁ rest s'

/-- The operations a thread has called. -/
def calls (t : θ) (h : List (Event θ Op Ret)) : List Op :=
  h.filterMap fun
    | .call u op => if u = t then some op else none
    | .answer _ _ => none

/-- The answers a thread has got. -/
def answers (t : θ) (h : List (Event θ Op Ret)) : List Ret :=
  h.filterMap fun
    | .call _ _ => none
    | .answer u r => if u = t then some r else none

/-- The operations of a thread among those performed, with their
results. -/
def ofThread (t : θ) (l : List (θ × Op × Ret)) : List (Op × Ret) :=
  l.filterMap fun x => if x.1 = t then some x.2 else none

variable {spec} {o o' : Object θ S Op Ret} {a : Action θ Op} {s s' : S}
  {t u : θ} {op : Op} {r : Ret}

-- ================================================================ steps

theorem step_call (h : o.status t = .idle) (op : Op) :
    step spec (.call t op) o = some { o with
      status := Function.update o.status t (.called op)
      history := o.history ++ [.call t op] } := by
  simp only [step, h]

theorem step_perform (h : o.status t = .called op)
    (hs : spec op o.state = some (r, s)) :
    step spec (.perform t) o = some { o with
      state := s
      status := Function.update o.status t (.performed r)
      order := o.order ++ [(t, op, r)] } := by
  simp only [step, h, hs]

theorem step_answer (h : o.status t = .performed r) :
    step spec (.answer t) o = some { o with
      status := Function.update o.status t .idle
      history := o.history ++ [.answer t r] } := by
  simp only [step, h]

/-- The three things a step can do. -/
theorem step_cases (h : step spec a o = some o') :
    (∃ t op, o.status t = .idle ∧ o' = { o with
        status := Function.update o.status t (.called op)
        history := o.history ++ [.call t op] })
      ∨ (∃ t op r s, o.status t = .called op ∧ spec op o.state = some (r, s)
        ∧ o' = { o with
            state := s
            status := Function.update o.status t (.performed r)
            order := o.order ++ [(t, op, r)] })
      ∨ ∃ t r, o.status t = .performed r ∧ o' = { o with
          status := Function.update o.status t .idle
          history := o.history ++ [.answer t r] } := by
  cases a with
  | call t op =>
      simp only [step] at h
      split at h
      case h_1 hidle =>
        rw [Option.some.injEq] at h
        exact .inl ⟨t, op, hidle, h.symm⟩
      case h_2 => cases h
  | perform t =>
      simp only [step] at h
      split at h
      case h_1 op hcalled =>
        split at h
        case h_1 r s hspec =>
          rw [Option.some.injEq] at h
          exact .inr (.inl ⟨t, op, r, s, hcalled, hspec, h.symm⟩)
        case h_2 => cases h
      case h_2 => cases h
  | answer t =>
      simp only [step] at h
      split at h
      case h_1 r hperformed =>
        rw [Option.some.injEq] at h
        exact .inr (.inr ⟨t, r, hperformed, h.symm⟩)
      case h_2 => cases h

-- ============================================================= legality

omit [DecidableEq θ] in
theorem Legal.snoc {l : List (θ × Op × Ret)} {s₁ : S}
    (h : Legal spec s l s₁) (hs : spec op s₁ = some (r, s')) :
    Legal spec s (l ++ [(t, op, r)]) s' := by
  induction l generalizing s with
  | nil =>
      obtain rfl : s = s₁ := h
      exact ⟨s', hs, rfl⟩
  | cons x rest ih =>
      obtain ⟨s₂, hx, hrest⟩ := h
      exact ⟨s₂, hx, ih hrest⟩

theorem ofThread_snoc (t : θ) (l : List (θ × Op × Ret)) (u : θ) (op : Op)
    (r : Ret) : ofThread t (l ++ [(u, op, r)])
      = ofThread t l ++ if u = t then [(op, r)] else [] := by
  rw [ofThread, List.filterMap_append, ofThread]
  by_cases hu : u = t <;> simp [hu]

theorem calls_call (t : θ) (h : List (Event θ Op Ret)) (u : θ) (op : Op) :
    calls t (h ++ [.call u op]) = calls t h ++ if u = t then [op] else [] := by
  rw [calls, List.filterMap_append, calls]
  by_cases hu : u = t <;> simp [hu]

theorem calls_answer (t : θ) (h : List (Event θ Op Ret)) (u : θ) (r : Ret) :
    calls t (h ++ [.answer u r]) = calls t h := by
  rw [calls, List.filterMap_append, calls]
  simp

theorem answers_call (t : θ) (h : List (Event θ Op Ret)) (u : θ) (op : Op) :
    answers t (h ++ [.call u op]) = answers t h := by
  rw [answers, List.filterMap_append, answers]
  simp

theorem answers_answer (t : θ) (h : List (Event θ Op Ret)) (u : θ) (r : Ret) :
    answers t (h ++ [.answer u r])
      = answers t h ++ if u = t then [r] else [] := by
  rw [answers, List.filterMap_append, answers]
  by_cases hu : u = t <;> simp [hu]

theorem mem_calls {h : List (Event θ Op Ret)} :
    op ∈ calls t h ↔ Event.call t op ∈ h := by
  rw [calls, List.mem_filterMap]
  constructor
  · rintro ⟨e, he, hop⟩
    cases e with
    | call u op' =>
        by_cases hu : u = t
        · simp only [if_pos hu, Option.some.injEq] at hop
          exact hu ▸ hop ▸ he
        · simp only [if_neg hu] at hop
          cases hop
    | answer u r => cases hop
  · intro he
    exact ⟨_, he, if_pos rfl⟩

theorem mem_ofThread {l : List (θ × Op × Ret)} {x : θ × Op × Ret}
    (hx : x ∈ l) : x.2 ∈ ofThread x.1 l :=
  List.mem_filterMap.mpr ⟨x, hx, if_pos rfl⟩

/-- What a thread still expects: an operation it has called, or an answer
it has not got. -/
def Expects (o : Object θ S Op Ret) (t : θ) : Prop :=
  match o.status t with
  | .idle => calls t o.history = (ofThread t o.order).map (·.1)
      ∧ answers t o.history = (ofThread t o.order).map (·.2)
  | .called op => calls t o.history = (ofThread t o.order).map (·.1) ++ [op]
      ∧ answers t o.history = (ofThread t o.order).map (·.2)
  | .performed r => calls t o.history = (ofThread t o.order).map (·.1)
      ∧ answers t o.history ++ [r] = (ofThread t o.order).map (·.2)

/-- A step of another thread changes nothing in that. -/
theorem Expects.of_other {st : Status Op Ret} (h : Expects o t)
    (hstatus : o'.status = Function.update o.status u st) (hne : u ≠ t)
    (hcalls : calls t o'.history = calls t o.history)
    (hanswers : answers t o'.history = answers t o.history)
    (horder : ofThread t o'.order = ofThread t o.order) : Expects o' t := by
  rw [Expects, hstatus, Function.update_of_ne hne.symm, hcalls, hanswers,
    horder]
  exact h

theorem expects_step (h : ∀ t, Expects o t) (hs : step spec a o = some o') :
    ∀ t, Expects o' t := by
  intro t
  have ht := h t
  rcases step_cases hs with ⟨u, op, hu, rfl⟩ | ⟨u, op, r, s, hu, -, rfl⟩ |
    ⟨u, r, hu, rfl⟩
  · by_cases hut : u = t
    · subst hut
      rw [Expects, hu] at ht
      rw [Expects]
      simp only [Function.update_self, calls_call, answers_call, if_true]
      exact ⟨congrArg (· ++ [op]) ht.1, ht.2⟩
    · refine ht.of_other rfl hut ?_ (answers_call t _ u op) rfl
      rw [calls_call, if_neg hut, List.append_nil]
  · by_cases hut : u = t
    · subst hut
      rw [Expects, hu] at ht
      rw [Expects]
      simp only [Function.update_self, ofThread_snoc, if_true, List.map_append,
        List.map_singleton]
      exact ⟨ht.1, congrArg (· ++ [r]) ht.2⟩
    · refine ht.of_other rfl hut rfl rfl ?_
      rw [ofThread_snoc, if_neg hut, List.append_nil]
  · by_cases hut : u = t
    · subst hut
      rw [Expects, hu] at ht
      rw [Expects]
      simp only [Function.update_self, calls_answer, answers_answer, if_true]
      exact ht
    · refine ht.of_other rfl hut (calls_answer t _ u r) ?_ rfl
      rw [answers_answer, if_neg hut, List.append_nil]

/-- In every reachable state the operations performed are a run of the
sequential object. -/
theorem legal_of_reaches (h : Lts.Reaches (step spec) (start s) o) :
    Legal spec s o.order o.state ∧ ∀ t, Expects o t := by
  obtain ⟨as, hrun⟩ := h
  have hlegal : Legal spec s (start s : Object θ S Op Ret).order s := rfl
  have hexpects (t : θ) : Expects (start s : Object θ S Op Ret) t :=
    ⟨rfl, rfl⟩
  refine Lts.run_invariant
    (fun o => Legal spec s o.order o.state ∧ ∀ t, Expects o t) ?_
    ⟨hlegal, hexpects⟩ hrun
  rintro o a o' ⟨hlegal, hexpects⟩ hs
  refine ⟨?_, expects_step hexpects hs⟩
  rcases step_cases hs with ⟨t, op, -, rfl⟩ | ⟨t, op, r, s, -, hspec, rfl⟩ |
    ⟨t, r, -, rfl⟩
  · exact hlegal
  · exact hlegal.snoc hspec
  · exact hlegal

/-- In every reachable state a thread has called what is performed for it,
and got no other answers. -/
theorem Expects.prefixes (h : Expects o t) :
    (ofThread t o.order).map (·.1) <+: calls t o.history
      ∧ answers t o.history <+: (ofThread t o.order).map (·.2) := by
  rw [Expects] at h
  split at h
  · exact ⟨h.1 ▸ List.prefix_rfl, h.2 ▸ List.prefix_rfl⟩
  · exact ⟨h.1 ▸ List.prefix_append _ _, h.2 ▸ List.prefix_rfl⟩
  · exact ⟨h.1 ▸ List.prefix_rfl, h.2 ▸ List.prefix_append _ _⟩

/-- A thread outside has called just that, and got all its answers. -/
theorem Expects.of_idle (h : Expects o t) (ht : o.status t = .idle) :
    calls t o.history = (ofThread t o.order).map (·.1)
      ∧ answers t o.history = (ofThread t o.order).map (·.2) := by
  rw [Expects, ht] at h
  exact h

end Atomic
