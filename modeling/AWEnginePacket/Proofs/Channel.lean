/-
A `ThreadSafeQueue` as a channel: any number of threads push at the back,
and one of them pops at the front.

This is the use the server makes of it. What the consumer pops is then
what was pushed, each item once, and for every producer in the order in
which it pushed (`channel_fifo`); where nobody is in the middle of a
call, what it has not popped is what is still in the queue.

The argument is about a deque that is used by one at a time
(`legal_fifo`). The threads come in by `linearizable`: there is an order
of the calls in which the queue behaved so, and a thread's own calls and
answers stand in it as the thread made and got them.
-/
import AWEnginePacket.Proofs.SharedQueue

namespace AWEnginePacket

open Atomic (Event Legal ofThread calls answers)

namespace SharedQueue

variable {T : Type} {q : SharedQueue T} {t consumer : Nat} {c : Call T}
  {r : Answer T} {items items' : List T} {l : List (Nat × Call T × Answer T)}

/-- The calls of a channel's users. -/
def Call.Uses (consumer t : Nat) : Call T → Prop
  | .push .back _ => True
  | .pop .front => t = consumer
  | .empty | .size | .wait => True
  | _ => False

/-- Nobody calls anything else. -/
def Channel (consumer : Nat) (h : List (Event Nat (Call T) (Answer T))) :
    Prop :=
  ∀ t c, Event.call t c ∈ h → c.Uses consumer t

def Call.pushed? : Call T → Option T
  | .push _ item => some item
  | _ => none

def Answer.item? : Answer T → Option T
  | .item x => x
  | _ => none

/-- What a thread has pushed, or is pushing. -/
def pushedBy (t : Nat) (h : List (Event Nat (Call T) (Answer T))) :
    List T :=
  (calls t h).filterMap Call.pushed?

/-- What a thread has got. -/
def received (t : Nat) (h : List (Event Nat (Call T) (Answer T))) :
    List T :=
  (answers t h).filterMap Answer.item?

-- ========================================================== one at a time

/-- The pushes among the calls performed, and who made them. -/
def pushes (l : List (Nat × Call T × Answer T)) : List (Nat × T) :=
  l.filterMap fun x => x.2.1.pushed?.map fun item => (x.1, item)

/-- The items that came out. -/
def pops (l : List (Nat × Call T × Answer T)) : List T :=
  l.filterMap fun x => x.2.2.item?

/-- One call, by one who uses the queue as a channel. -/
theorem deque_fifo (huses : c.Uses consumer t)
    (h : deque c items = some (r, items')) :
    items ++ c.pushed?.toList = r.item?.toList ++ items'
      ∧ (t ≠ consumer → r.item? = none) := by
  cases c with
  | peek e => cases huses
  | clear => cases huses
  | pop e =>
      cases e with
      | back => cases huses
      | front =>
          rw [deque, Option.map_eq_some_iff] at h
          obtain ⟨x, hx, h⟩ := h
          cases h
          cases items with
          | nil => cases hx
          | cons y rest =>
              cases hx
              refine ⟨List.append_nil _, fun hne => absurd ?_ hne⟩
              exact huses
  | push e item =>
      cases e with
      | front => cases huses
      | back =>
          cases h
          exact ⟨rfl, fun _ => rfl⟩
  | empty =>
      cases h
      exact ⟨List.append_nil _, fun _ => rfl⟩
  | size =>
      cases h
      exact ⟨List.append_nil _, fun _ => rfl⟩
  | wait =>
      rw [deque] at h
      split at h
      · cases h
      · cases h
        exact ⟨List.append_nil _, fun _ => rfl⟩

/-- What is pushed comes out in the same order. -/
theorem legal_fifo (huses : ∀ x ∈ l, x.2.1.Uses consumer x.1)
    (h : Legal deque items l items') :
    items ++ (pushes l).map (·.2) = pops l ++ items'
      ∧ ∀ x ∈ l, x.1 ≠ consumer → x.2.2.item? = none := by
  induction l generalizing items with
  | nil =>
      obtain rfl : items = items' := h
      refine ⟨List.append_nil _, fun x hx => ?_⟩
      cases hx
  | cons x rest ih =>
      obtain ⟨t, c, r⟩ := x
      obtain ⟨items₁, hstep, hrest⟩ := h
      obtain ⟨hone, hother⟩ := deque_fifo
        (huses (t, c, r) (List.mem_cons_self ..)) hstep
      obtain ⟨hall, hothers⟩ := ih
        (fun y hy => huses y (List.mem_cons_of_mem _ hy)) hrest
      refine ⟨?_, fun y hy => ?_⟩
      · have hpushes : (pushes ((t, c, r) :: rest)).map (·.2)
            = c.pushed?.toList ++ (pushes rest).map (·.2) := by
          rw [pushes, List.filterMap_cons]
          cases c.pushed? <;> rfl
        have hpops : pops ((t, c, r) :: rest)
            = r.item?.toList ++ pops rest := by
          rw [pops, List.filterMap_cons]
          cases r.item? <;> rfl
        rw [hpushes, hpops, ← List.append_assoc, hone, List.append_assoc, hall,
          List.append_assoc]
      · rcases List.mem_cons.mp hy with rfl | hy
        · exact hother
        · exact hothers y hy

-- ===================================================== a thread's own view

/-- The pushes of one thread are those it called. -/
theorem pushes_of (t : Nat) (l : List (Nat × Call T × Answer T)) :
    (pushes l).filterMap (fun x => if x.1 = t then some x.2 else none)
      = ((ofThread t l).map (·.1)).filterMap Call.pushed? := by
  rw [pushes, ofThread, List.filterMap_filterMap, List.filterMap_map,
    List.filterMap_filterMap]
  refine List.filterMap_congr fun x _ => ?_
  cases hitem : x.2.1.pushed? <;> by_cases ht : x.1 = t <;> simp [ht, hitem]

/-- The items that came out are those the consumer got. -/
theorem pops_of (h : ∀ x ∈ l, x.1 ≠ consumer → x.2.2.item? = none) :
    pops l = ((ofThread consumer l).map (·.2)).filterMap Answer.item? := by
  rw [pops, ofThread, List.filterMap_map, List.filterMap_filterMap]
  refine List.filterMap_congr fun x hx => ?_
  by_cases ht : x.1 = consumer
  · simp [ht]
  · simp [ht, h x hx ht]

-- =============================================================== results

/-- What the consumer has got is the first part of what was sent, where
the threads' pushes stand each in its own order. Where nobody is in the
middle of a call, every push has been sent, and the rest is in the
queue. -/
theorem channel_fifo (acts : List (Action T))
    (hrun : Lts.run step {} acts = some q)
    (hchannel : Channel consumer q.history) :
    ∃ sent : List (Nat × T),
      (∀ t, sent.filterMap (fun x => if x.1 = t then some x.2 else none)
          <+: pushedBy t q.history)
        ∧ received consumer q.history <+: sent.map (·.2)
        ∧ ((∀ t, q.thread t = .idle) →
          (∀ t, sent.filterMap (fun x => if x.1 = t then some x.2 else none)
              = pushedBy t q.history)
            ∧ (sent.map (·.2)).map some
              = (received consumer q.history).map some ++ q.mData) := by
  obtain ⟨-, o, hreach, h⟩ := reaches_abstract hrun
  obtain ⟨hlegal, hexpects⟩ := Atomic.legal_of_reaches hreach
  rw [← h.history] at hchannel ⊢
  have huses : ∀ x ∈ o.order, x.2.1.Uses consumer x.1 := by
    intro x hx
    have hcalled := (hexpects x.1).prefixes.1.subset
      (List.mem_map_of_mem (f := (·.1)) (Atomic.mem_ofThread hx))
    exact hchannel x.1 x.2.1 (Atomic.mem_calls.mp hcalled)
  obtain ⟨hfifo, hothers⟩ := legal_fifo huses hlegal
  rw [List.nil_append] at hfifo
  refine ⟨pushes o.order, fun t => ?_, ?_, fun hidle => ⟨fun t => ?_, ?_⟩⟩
  · rw [pushes_of]
    exact (hexpects t).prefixes.1.filterMap _
  · rw [hfifo, pops_of hothers]
    exact ((hexpects consumer).prefixes.2.filterMap _).trans
      (List.prefix_append _ _)
  · have ht : o.status t = .idle := by
      rw [h.status, hidle t]
      rfl
    rw [pushes_of, pushedBy, ((hexpects t).of_idle ht).1]
  · have hconsumer : o.status consumer = .idle := by
      rw [h.status, hidle consumer]
      rfl
    have hdata := h.whole fun t => by
      rw [hidle t]
      rfl
    rw [hfifo, pops_of hothers, received,
      ((hexpects consumer).of_idle hconsumer).2, hdata, List.map_append]

theorem channel_fifo_handover :
    ∃ q : SharedQueue Nat, Lts.run step {} handover = some q
      ∧ received 1 q.history = [7]
      ∧ ∃ sent : List (Nat × Nat),
        (∀ t, sent.filterMap (fun x => if x.1 = t then some x.2 else none)
            <+: pushedBy t q.history)
          ∧ received 1 q.history <+: sent.map (·.2)
          ∧ ((∀ t, q.thread t = .idle) →
            (∀ t, sent.filterMap
                (fun x => if x.1 = t then some x.2 else none)
                = pushedBy t q.history)
              ∧ (sent.map (·.2)).map some
                = (received 1 q.history).map some ++ q.mData) := by
  refine ⟨_, rfl, rfl, channel_fifo handover rfl ?_⟩
  intro t c hc
  have hc' : Event.call t c ∈ ([.call 1 .wait, .call 2 (.push .back 7),
      .answer 2 .done, .answer 1 .done, .call 2 .size,
      .call 1 (.pop .front), .answer 2 (.count 0),
      .answer 1 (.item (some 7))] :
        List (Event Nat (Call Nat) (Answer Nat))) := hc
  simp only [List.mem_cons, Event.call.injEq, reduceCtorEq, false_or,
    List.not_mem_nil, or_false] at hc'
  rcases hc' with ⟨rfl, rfl⟩ | ⟨rfl, rfl⟩ | ⟨rfl, rfl⟩ | ⟨rfl, rfl⟩
  · trivial
  · trivial
  · trivial
  · rfl

end SharedQueue

end AWEnginePacket
