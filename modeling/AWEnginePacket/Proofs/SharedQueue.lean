/-
A `ThreadSafeQueue` is a queue for any number of threads.

Whatever the threads call, and however their steps interleave, the queue
answers as a deque would on which every method is done in one step at
some moment between its call and its return (`linearizable`). The moment
is the method's first work on `m_Data`; for `wait()` it is the test that
finds an item.

# The invariant

`Inv` says who holds the two mutexes and who sleeps, each read off the
places of the threads. The deque of the abstraction (`Abstracts`) is
`m_Data` without the shell that a pop leaves between its two operations;
only the holder of `m_MutesQueue` can be there, so at most one thread is.
-/
import AWEnginePacket.Lib.Mutex
import AWEnginePacket.Model.SharedQueue

namespace AWEnginePacket

open Mutex (Owns)
open ThreadSafeQueue (End insertAt)

namespace SharedQueue

variable {T α : Type} {q q' : SharedQueue T} {t u : Nat} {c : Call T}
  {e : End} {x : Option T} {a : Answer T} {p : Point T}

/-- What a deque does by itself. Nothing where it is undefined, or would
have to wait. -/
def deque (c : Call T) (items : List T) : Option (Answer T × List T) :=
  match c with
  | .peek e => (itemAt e items).map fun x => (.item (some x), items)
  | .pop e => (itemAt e items).map fun x =>
      (.item (some x), removeAt e items)
  | .push e item => some (.done, insertAt e item items)
  | .empty => some (.isEmpty items.isEmpty, items)
  | .size => some (.count items.length, items)
  | .clear => some (.done, [])
  | .wait => if items.isEmpty then none else some (.done, items)

-- ================================================================ places

/-- The thread holds `m_MutesQueue`. -/
def Point.HoldsQueue : Point T → Prop
  | .inside _ | .moved _ _ | .pushed | .signalling | .signalled
  | .leaving _ | .foundEmpty => True
  | _ => False

/-- The thread holds `m_MutexItemPushed`. -/
def Point.HoldsItem : Point T → Prop
  | .signalling | .signalled | .locked | .relocked => True
  | _ => False

/-- The mutexes are held by those who are where they are held, and those
sleep who wait on the condition variable. -/
structure Placed (place : Nat → Point T) (queue item : Option Nat)
    (waiting : Finset Nat) : Prop where
  queue : Owns Point.HoldsQueue place queue
  item : Owns Point.HoldsItem place item
  sleepers : ∀ t, t ∈ waiting ↔ place t = .blocked

/-- The threads are where the two mutexes and the condition variable have
them. -/
def Inv (q : SharedQueue T) : Prop :=
  Placed q.thread q.mMutesQueue q.mMutexItemPushed q.mItemPushed

section placed

variable {place : Nat → Point T} {queue item : Option Nat}
  {waiting : Finset Nat}

/-- Others sleep as before. -/
private theorem sleepers_move
    (h : ∀ u, u ∈ waiting ↔ place u = .blocked) (ht : place t ≠ .blocked)
    (hp : p ≠ .blocked) (u : Nat) :
    u ∈ waiting ↔ Function.update place t p u = .blocked := by
  by_cases hu : u = t
  · subst hu
    rw [Function.update_self, h u]
    exact iff_of_false ht hp
  · rw [Function.update_of_ne hu]
    exact h u

/-- A thread that holds what it held and does not sleep. -/
theorem Placed.move (h : Placed place queue item waiting)
    (hqueue : p.HoldsQueue ↔ (place t).HoldsQueue)
    (hitem : p.HoldsItem ↔ (place t).HoldsItem)
    (ht : place t ≠ .blocked) (hp : p ≠ .blocked) :
    Placed (Function.update place t p) queue item waiting :=
  ⟨h.queue.move hqueue, h.item.move hitem, sleepers_move h.sleepers ht hp⟩

/-- A thread enters a method: `m_MutesQueue` was free. -/
theorem Placed.lockQueue (h : Placed place none item waiting)
    (ht : place t = .entering c) :
    Placed (Function.update place t (.inside c)) (some t) item waiting :=
  ⟨h.queue.lock trivial, h.item.move (by simp [ht, Point.HoldsItem]),
    sleepers_move h.sleepers (by simp [ht]) (by simp)⟩

/-- It leaves the method, or, from within `wait()`, the look into the
queue. -/
theorem Placed.unlockQueue (h : Placed place queue item waiting)
    (hp : (∃ a, place t = .leaving a ∧ p = .left a)
      ∨ place t = .foundEmpty ∧ p = .sawEmpty) :
    Placed (Function.update place t p) none item waiting := by
  rcases hp with ⟨a, ht, rfl⟩ | ⟨ht, rfl⟩
  · exact ⟨h.queue.unlock (by simp [ht, Point.HoldsQueue]) not_false,
      h.item.move (by simp [ht, Point.HoldsItem]),
      sleepers_move h.sleepers (by simp [ht]) (by simp)⟩
  · exact ⟨h.queue.unlock (by simp [ht, Point.HoldsQueue]) not_false,
      h.item.move (by simp [ht, Point.HoldsItem]),
      sleepers_move h.sleepers (by simp [ht]) (by simp)⟩

/-- A push and a waiting thread take `m_MutexItemPushed` alike. -/
theorem Placed.lockItem (h : Placed place queue none waiting)
    (hqueue : p.HoldsQueue ↔ (place t).HoldsQueue) (hitem : p.HoldsItem)
    (ht : place t ≠ .blocked) (hp : p ≠ .blocked) :
    Placed (Function.update place t p) queue (some t) waiting :=
  ⟨h.queue.move hqueue, h.item.lock hitem,
    sleepers_move h.sleepers ht hp⟩

/-- And give it back. -/
theorem Placed.unlockItem (h : Placed place queue item waiting)
    (hqueue : p.HoldsQueue ↔ (place t).HoldsQueue)
    (ht : (place t).HoldsItem) (hitem : ¬ p.HoldsItem)
    (hp : p ≠ .blocked) :
    Placed (Function.update place t p) queue none waiting := by
  refine ⟨h.queue.move hqueue, h.item.unlock ht hitem,
    sleepers_move h.sleepers ?_ hp⟩
  intro hblocked
  rw [hblocked] at ht
  exact ht

/-- Going to sleep gives it back and joins those who wait, in one step. -/
theorem Placed.sleep (h : Placed place queue item waiting)
    (ht : place t = .locked) :
    Placed (Function.update place t .blocked) queue none
      (insert t waiting) := by
  refine ⟨h.queue.move (by simp [ht, Point.HoldsQueue]),
    h.item.unlock (by simp [ht, Point.HoldsItem]) not_false, fun u => ?_⟩
  by_cases hu : u = t
  · simp [hu]
  · rw [Finset.mem_insert, Function.update_of_ne hu, ← h.sleepers u]
    exact or_iff_right hu

/-- Whoever wakes a sleeper, the thread itself or a push, it waits no
longer and has yet to lock. -/
theorem Placed.wake (h : Placed place queue item waiting)
    (ht : t ∈ waiting) :
    Placed (Function.update place t .woken) queue item
      (waiting.erase t) := by
  have hblocked := (h.sleepers t).mp ht
  refine ⟨h.queue.move (by simp [hblocked, Point.HoldsQueue]),
    h.item.move (by simp [hblocked, Point.HoldsItem]), fun u => ?_⟩
  by_cases hu : u = t
  · simp [hu]
  · rw [Finset.mem_erase, Function.update_of_ne hu, ← h.sleepers u]
    exact and_iff_right hu

end placed

-- ================================================================= steps

/-- A call is made, and enters the history. -/
theorem step_call : step (.call t c) q = some q' ↔ q.thread t = .idle
    ∧ { q.goTo t (.entering c) with
          history := q.history ++ [.call t c] } = q' := by
  rw [step]
  split <;> simp_all

/-- `scoped_lock`, at the head of a method. -/
theorem step_lock : step (.lock t) q = some q' ↔
    ∃ c, q.thread t = .entering c ∧ q.mMutesQueue = none
      ∧ { q.goTo t (.inside c) with mMutesQueue := some t } = q' := by
  rw [step]
  split <;> simp_all

/-- The first work on `m_Data`. -/
theorem step_body : step (.body t) q = some q' ↔
    ∃ c p data, q.thread t = .inside c ∧ body c q.mData = some (p, data)
      ∧ { q.goTo t p with mData := data } = q' := by
  rw [step]
  split
  · split <;> simp_all
  · simp_all

/-- `pop_front()` or `pop_back()` of the deque, past the move. -/
theorem step_remove : step (.remove t) q = some q' ↔
    ∃ e x, q.thread t = .moved e x
      ∧ { q.goTo t (.leaving (.item x)) with
            mData := removeAt e q.mData } = q' := by
  rw [step]
  split <;> simp_all

/-- A push that has its item in. -/
theorem step_lockPushed : step (.lockPushed t) q = some q' ↔
    q.thread t = .pushed ∧ q.mMutexItemPushed = none
      ∧ { q.goTo t .signalling with mMutexItemPushed := some t } = q' := by
  rw [step]
  split <;> simp_all

/-- `notify_one()` where somebody sleeps: it is the scheduler who says who
wakes. -/
theorem step_notify_some : step (.notifyOne t (some u)) q = some q' ↔
    q.thread t = .signalling ∧ u ∈ q.mItemPushed
      ∧ { (q.goTo t .signalled).goTo u .woken with
            mItemPushed := q.mItemPushed.erase u } = q' := by
  rw [step]
  split <;> simp_all

/-- `notify_one()` where nobody does is lost. -/
theorem step_notify_none : step (.notifyOne t none) q = some q' ↔
    q.thread t = .signalling ∧ q.mItemPushed = ∅
      ∧ q.goTo t .signalled = q' := by
  rw [step]
  split <;> simp_all

/-- The inner guard of a push is destroyed first. -/
theorem step_unlockPushed : step (.unlockPushed t) q = some q' ↔
    q.thread t = .signalled
      ∧ { q.goTo t (.leaving .done) with mMutexItemPushed := none }
        = q' := by
  rw [step]
  split <;> simp_all

/-- The guard of a method is destroyed. -/
theorem step_unlock : step (.unlock t) q = some q' ↔
    ∃ p, ((∃ a, q.thread t = .leaving a ∧ p = .left a)
        ∨ q.thread t = .foundEmpty ∧ p = .sawEmpty)
      ∧ { q.goTo t p with mMutesQueue := none } = q' := by
  rw [step]
  split <;> simp_all

/-- The answer is returned, and enters the history. -/
theorem step_ret : step (.ret t) q = some q' ↔ ∃ a, q.thread t = .left a
    ∧ { q.goTo t .idle with
          history := q.history ++ [.answer t a] } = q' := by
  rw [step]
  split <;> simp_all

/-- `wait()` has seen the queue empty, and unlocked it. -/
theorem step_lockWait : step (.lockWait t) q = some q' ↔
    q.thread t = .sawEmpty ∧ q.mMutexItemPushed = none
      ∧ { q.goTo t .locked with mMutexItemPushed := some t } = q' := by
  rw [step]
  split <;> simp_all

/-- The condition variable takes the lock of a thread that waits on it. -/
theorem step_sleep : step (.sleep t) q = some q' ↔ q.thread t = .locked
    ∧ { q.goTo t .blocked with
          mMutexItemPushed := none
          mItemPushed := insert t q.mItemPushed } = q' := by
  rw [step]
  split <;> simp_all

/-- A wakeup that nobody asked for. -/
theorem step_wake : step (.wake t) q = some q' ↔ t ∈ q.mItemPushed
    ∧ { q.goTo t .woken with
          mItemPushed := q.mItemPushed.erase t } = q' := by
  rw [step]
  split <;> simp_all

/-- Awake, a thread first has to lock again. -/
theorem step_relock : step (.relock t) q = some q' ↔
    q.thread t = .woken ∧ q.mMutexItemPushed = none
      ∧ { q.goTo t .relocked with mMutexItemPushed := some t } = q' := by
  rw [step]
  split <;> simp_all

/-- The loop of `wait()` comes back to its test. -/
theorem step_unlockWait : step (.unlockWait t) q = some q' ↔
    q.thread t = .relocked
      ∧ { q.goTo t (.entering .wait) with mMutexItemPushed := none }
        = q' := by
  rw [step]
  split <;> simp_all

/-- Where a method is after its first work on `m_Data`. -/
theorem body_point {data data' : List (Option T)}
    (h : body c data = some (p, data')) :
    p.HoldsQueue ∧ ¬ p.HoldsItem ∧ p ≠ .blocked := by
  cases c <;> simp only [body, Option.map_eq_some_iff, Option.some.injEq,
    Prod.mk.injEq] at h
  case wait =>
    obtain ⟨rfl, -⟩ := h
    split <;> simp [Point.HoldsQueue, Point.HoldsItem]
  case peek e =>
    obtain ⟨x, -, rfl, -⟩ := h
    simp [Point.HoldsQueue, Point.HoldsItem]
  case pop e =>
    obtain ⟨x, -, rfl, -⟩ := h
    simp [Point.HoldsQueue, Point.HoldsItem]
  all_goals
    obtain ⟨rfl, -⟩ := h
    simp [Point.HoldsQueue, Point.HoldsItem]

-- ============================================================= invariant

/-- Nobody has called anything. -/
theorem inv_start : Inv ({} : SharedQueue T) := by
  refine ⟨fun t => ?_, fun t => ?_, fun t => ?_⟩
  · exact iff_of_false not_false (by simp)
  · exact iff_of_false not_false (by simp)
  · simp

/-- Every step takes one thread, or a push and the one it wakes, to a place
that holds what the step has locked. -/
theorem inv_step {act : Action T} (h : Inv q) (hs : step act q = some q') :
    Inv q' := by
  cases act with
  | call t c =>
      obtain ⟨ht, rfl⟩ := step_call.mp hs
      exact Placed.move h (by simp [ht, Point.HoldsQueue])
        (by simp [ht, Point.HoldsItem]) (by simp [ht]) (by simp)
  | lock t =>
      obtain ⟨c, ht, hfree, rfl⟩ := step_lock.mp hs
      rw [Inv, hfree] at h
      exact h.lockQueue ht
  | body t =>
      obtain ⟨c, p, data, ht, hbody, rfl⟩ := step_body.mp hs
      obtain ⟨hqueue, hitem, hp⟩ := body_point hbody
      refine Placed.move h (iff_of_true hqueue ?_) (iff_of_false hitem ?_)
        (by simp [ht]) hp
      · simp [ht, Point.HoldsQueue]
      · simp [ht, Point.HoldsItem]
  | remove t =>
      obtain ⟨e, x, ht, rfl⟩ := step_remove.mp hs
      exact Placed.move h (by simp [ht, Point.HoldsQueue])
        (by simp [ht, Point.HoldsItem]) (by simp [ht]) (by simp)
  | lockPushed t =>
      obtain ⟨ht, hfree, rfl⟩ := step_lockPushed.mp hs
      rw [Inv, hfree] at h
      exact h.lockItem (by simp [ht, Point.HoldsQueue]) trivial
        (by simp [ht]) (by simp)
  | notifyOne t woken =>
      cases woken with
      | none =>
          obtain ⟨ht, -, rfl⟩ := step_notify_none.mp hs
          exact Placed.move h (by simp [ht, Point.HoldsQueue])
            (by simp [ht, Point.HoldsItem]) (by simp [ht]) (by simp)
      | some u =>
          obtain ⟨ht, hu, rfl⟩ := step_notify_some.mp hs
          have hmoved := Placed.move (t := t) (p := .signalled) h
            (by simp [ht, Point.HoldsQueue])
            (by simp [ht, Point.HoldsItem]) (by simp [ht]) (by simp)
          exact hmoved.wake hu
  | unlockPushed t =>
      obtain ⟨ht, rfl⟩ := step_unlockPushed.mp hs
      exact Placed.unlockItem h (by simp [ht, Point.HoldsQueue])
        (by simp [ht, Point.HoldsItem]) not_false (by simp)
  | unlock t =>
      obtain ⟨p, hp, rfl⟩ := step_unlock.mp hs
      exact Placed.unlockQueue h hp
  | ret t =>
      obtain ⟨a, ht, rfl⟩ := step_ret.mp hs
      exact Placed.move h (by simp [ht, Point.HoldsQueue])
        (by simp [ht, Point.HoldsItem]) (by simp [ht]) (by simp)
  | lockWait t =>
      obtain ⟨ht, hfree, rfl⟩ := step_lockWait.mp hs
      rw [Inv, hfree] at h
      exact h.lockItem (by simp [ht, Point.HoldsQueue]) trivial
        (by simp [ht]) (by simp)
  | sleep t =>
      obtain ⟨ht, rfl⟩ := step_sleep.mp hs
      exact Placed.sleep h ht
  | wake t =>
      obtain ⟨ht, rfl⟩ := step_wake.mp hs
      exact Placed.wake h ht
  | relock t =>
      obtain ⟨ht, hfree, rfl⟩ := step_relock.mp hs
      rw [Inv, hfree] at h
      exact h.lockItem (by simp [ht, Point.HoldsQueue]) trivial
        (by simp [ht]) (by simp)
  | unlockWait t =>
      obtain ⟨ht, rfl⟩ := step_unlockWait.mp hs
      exact Placed.unlockItem h (by simp [ht, Point.HoldsQueue])
        (by simp [ht, Point.HoldsItem]) not_false (by simp)

-- =========================================================== abstraction

/-- What a place means for the call the thread has made. -/
def Point.status : Point T → Atomic.Status (Call T) (Answer T)
  | .idle => .idle
  | .entering c | .inside c => .called c
  | .moved _ x => .performed (.item x)
  | .pushed | .signalling | .signalled => .performed .done
  | .leaving a | .left a => .performed a
  | .foundEmpty | .sawEmpty | .locked | .blocked | .woken | .relocked =>
      .called .wait

/-- The end at which the thread has left the shell of an item. -/
def Point.shell : Point T → Option End
  | .moved e _ => some e
  | _ => none

variable {o : Atomic.Object Nat (List T) (Call T) (Answer T)}
  {items : List T} {data : List (Option T)}

/-- The atomic deque that the queue stands for. -/
structure Abstracts (q : SharedQueue T)
    (o : Atomic.Object Nat (List T) (Call T) (Answer T)) : Prop where
  status : ∀ t, o.status t = (q.thread t).status
  history : o.history = q.history
  whole : (∀ t, (q.thread t).shell = none) → q.mData = o.state.map some
  shelled : ∀ t e, (q.thread t).shell = some e →
    q.mData = insertAt e none (o.state.map some)

/-- Only a thread inside can leave a shell. -/
theorem Point.holdsQueue_of_shell (h : p.shell = some e) :
    p.HoldsQueue := by
  cases p <;> simp_all [Point.shell, Point.HoldsQueue]

/-- The ends of a deque are where they are whatever the items. -/
theorem itemAt_map (e : End) (items : List α) (f : α → T) :
    itemAt e (items.map f) = (itemAt e items).map f := by
  cases e with
  | front => exact List.head?_map
  | back => exact List.getLast?_map

/-- So is what remains without one, -/
theorem removeAt_map (e : End) (items : List α) (f : α → T) :
    removeAt e (items.map f) = (removeAt e items).map f := by
  cases e with
  | front => exact List.map_tail.symm
  | back => exact List.map_dropLast.symm

/-- and with one more. -/
theorem insertAt_map (e : End) (x : α) (items : List α) (f : α → T) :
    insertAt e (f x) (items.map f) = (insertAt e x items).map f := by
  cases e <;> simp [insertAt]

/-- An item that was put in at an end is there to be taken out. -/
theorem removeAt_insertAt (e : End) (x : α) (items : List α) :
    removeAt e (insertAt e x items) = items := by
  cases e <;> simp [insertAt, removeAt]

/-- The first work of a method on a deque without shells: the deque's own
answer, or the discovery that there is nothing to wait for yet. -/
theorem body_deque (h : body c (items.map some) = some (p, data)) :
    (∃ r items', deque c items = some (r, items') ∧ p.status = .performed r
        ∧ (p.shell = none → data = items'.map some)
        ∧ ∀ e, p.shell = some e → data = insertAt e none (items'.map some))
      ∨ c = .wait ∧ p = .foundEmpty ∧ data = items.map some := by
  cases c with
  | peek e =>
      rw [body, itemAt_map, Option.map_map, Option.map_eq_some_iff] at h
      obtain ⟨x, hx, h⟩ := h
      cases h
      refine .inl ⟨.item (some x), items, ?_, rfl, fun _ => rfl, ?_⟩
      · rw [deque, hx, Option.map_some]
      · simp [Point.shell]
  | pop e =>
      rw [body, itemAt_map, removeAt_map, Option.map_map,
        Option.map_eq_some_iff] at h
      obtain ⟨x, hx, h⟩ := h
      cases h
      refine .inl ⟨.item (some x), removeAt e items, ?_, rfl, ?_, ?_⟩
      · rw [deque, hx, Option.map_some]
      · simp [Point.shell]
      · intro e' he
        cases he
        rfl
  | push e item =>
      cases h
      refine .inl ⟨.done, insertAt e item items, rfl, rfl, fun _ => ?_, ?_⟩
      · exact insertAt_map e item items some
      · simp [Point.shell]
  | empty =>
      cases h
      refine .inl ⟨.isEmpty items.isEmpty, items, rfl, ?_, fun _ => rfl, ?_⟩
      · rw [List.isEmpty_map]
        rfl
      · simp [Point.shell]
  | size =>
      cases h
      refine .inl ⟨.count items.length, items, rfl, ?_, fun _ => rfl, ?_⟩
      · rw [List.length_map]
        rfl
      · simp [Point.shell]
  | clear =>
      cases h
      refine .inl ⟨.done, [], rfl, rfl, fun _ => rfl, ?_⟩
      simp [Point.shell]
  | wait =>
      cases h
      rw [List.isEmpty_map]
      by_cases hempty : items.isEmpty
      · exact .inr ⟨rfl, if_pos hempty, rfl⟩
      · rw [if_neg hempty]
        refine .inl ⟨.done, items, if_neg hempty, rfl, fun _ => rfl, ?_⟩
        simp [Point.shell]

/-- The places of the others when one thread moves. -/
theorem Abstracts.status_update (h : Abstracts q o)
    {st : Atomic.Status (Call T) (Answer T)} (hp : p.status = st) (u : Nat) :
    Function.update o.status t st u
      = (Function.update q.thread t p u).status := by
  by_cases hu : u = t
  · subst hu
    rw [Function.update_self, Function.update_self, hp]
  · rw [Function.update_of_ne hu, Function.update_of_ne hu]
    exact h.status u

/-- A move within the same call. -/
theorem Abstracts.status_same (h : Abstracts q o)
    (hp : p.status = (q.thread t).status) (u : Nat) :
    o.status u = (Function.update q.thread t p u).status := by
  by_cases hu : u = t
  · subst hu
    rw [Function.update_self, hp]
    exact h.status u
  · rw [Function.update_of_ne hu]
    exact h.status u

/-- A step that does not touch `m_Data`. -/
theorem Abstracts.move (h : Abstracts q o)
    {o' : Atomic.Object Nat (List T) (Call T) (Answer T)}
    (hthread : q'.thread = Function.update q.thread t p)
    (hshell : p.shell = (q.thread t).shell) (hdata : q'.mData = q.mData)
    (hstate : o'.state = o.state)
    (hstatus : ∀ u, o'.status u = (Function.update q.thread t p u).status)
    (hhistory : o'.history = q'.history) : Abstracts q' o' := by
  have hsame (u : Nat) : (q'.thread u).shell = (q.thread u).shell := by
    rw [hthread]
    by_cases hu : u = t
    · subst hu
      rw [Function.update_self]
      exact hshell
    · rw [Function.update_of_ne hu]
  refine ⟨fun u => ?_, hhistory, fun hnone => ?_, fun u e he => ?_⟩
  · rw [hthread]
    exact hstatus u
  · rw [hdata, hstate]
    exact h.whole fun u => (hsame u).symm.trans (hnone u)
  · rw [hdata, hstate]
    exact h.shelled u e ((hsame u).symm.trans he)

/-- A step that its users do not see. -/
theorem Abstracts.silent (h : Abstracts q o)
    (hthread : q'.thread = Function.update q.thread t p)
    (hstatus : p.status = (q.thread t).status)
    (hshell : p.shell = (q.thread t).shell) (hdata : q'.mData = q.mData)
    (hhistory : q'.history = q.history) :
    ∃ o', Lts.Reaches (Atomic.step deque) o o' ∧ Abstracts q' o' := by
  exact ⟨o, .refl o, h.move hthread hshell hdata rfl
    (h.status_same hstatus) (h.history.trans hhistory.symm)⟩

/-- A thread inside is the only one that can have left a shell. -/
theorem shell_of_ne (h : Inv q) (ht : (q.thread t).HoldsQueue)
    (hu : u ≠ t) : (q.thread u).shell = none := by
  cases hshell : (q.thread u).shell with
  | none => rfl
  | some e =>
      exact absurd (h.queue.unique (Point.holdsQueue_of_shell hshell) ht) hu

/-- What the thread inside does to `m_Data`. -/
private theorem abstracts_inside (hinv : Inv q)
    (ht : (q.thread t).HoldsQueue) {st : Atomic.Object Nat (List T) (Call T)
      (Answer T)} (hstatus : ∀ u, st.status u
      = (Function.update q.thread t p u).status)
    (hhistory : st.history = q.history)
    (hwhole : p.shell = none → data = st.state.map some)
    (hshelled : ∀ e, p.shell = some e →
      data = insertAt e none (st.state.map some)) :
    Abstracts { q.goTo t p with mData := data } st := by
  refine ⟨hstatus, hhistory, fun hnone => hwhole ?_, fun u e he => ?_⟩
  · have ht' : (Function.update q.thread t p t).shell = none := hnone t
    rw [Function.update_self] at ht'
    exact ht'
  · have he' : (Function.update q.thread t p u).shell = some e := he
    by_cases hu : u = t
    · subst hu
      rw [Function.update_self] at he'
      exact hshelled e he'
    · rw [Function.update_of_ne hu, shell_of_ne hinv ht hu] at he'
      cases he'

/-- A method finds no shell in `m_Data`. -/
theorem Abstracts.whole_inside (h : Abstracts q o) (hinv : Inv q)
    (ht : q.thread t = .inside c) : q.mData = o.state.map some := by
  have hin : (q.thread t).HoldsQueue := by
    rw [ht]
    trivial
  refine h.whole fun u => ?_
  by_cases hu : u = t
  · rw [hu, ht]
    rfl
  · exact shell_of_ne hinv hin hu

/-- The first work of a method is the moment at which the deque performs
it, but for a `wait()` that finds nothing. -/
theorem body_step (hinv : Inv q) (h : Abstracts q o)
    (hs : step (.body t) q = some q') :
    ∃ o', Lts.Reaches (Atomic.step deque) o o' ∧ Abstracts q' o' := by
  obtain ⟨c, p, data, ht, hbody, rfl⟩ := step_body.mp hs
  have hin : (q.thread t).HoldsQueue := by
    rw [ht]
    trivial
  have hwhole := h.whole_inside hinv ht
  have hcalled : o.status t = .called c := by
    rw [h.status, ht]
    rfl
  rw [hwhole] at hbody
  rcases body_deque hbody with ⟨r, items, hdeque, hp, hnone, hsome⟩ |
    ⟨rfl, rfl, rfl⟩
  · exact ⟨_, (Lts.Reaches.refl o).snoc (Atomic.step_perform hcalled hdeque),
      abstracts_inside hinv hin (h.status_update hp) h.history hnone hsome⟩
  · have hsame := h.status_same (t := t) (p := .foundEmpty) (by rw [ht]; rfl)
    exact ⟨o, .refl o, abstracts_inside hinv hin hsame h.history
      (fun _ => rfl) (by simp [Point.shell])⟩

/-- Each step is one of the atomic deque: the call, the moment at which the
operation is performed, the answer, or none. -/
theorem abstracts_step {act : Action T} (hinv : Inv q) (h : Abstracts q o)
    (hs : step act q = some q') :
    ∃ o', Lts.Reaches (Atomic.step deque) o o' ∧ Abstracts q' o' := by
  cases act with
  | call t c =>
      obtain ⟨ht, rfl⟩ := step_call.mp hs
      have hidle : o.status t = .idle := by
        rw [h.status, ht]
        rfl
      exact ⟨_, (Lts.Reaches.refl o).snoc (Atomic.step_call hidle c),
        h.move rfl (by rw [ht]; rfl) rfl rfl (h.status_update rfl)
          (congrArg (· ++ [_]) h.history)⟩
  | lock t =>
      obtain ⟨c, ht, -, rfl⟩ := step_lock.mp hs
      exact h.silent rfl (by rw [ht]; rfl) (by rw [ht]; rfl) rfl rfl
  | body t => exact body_step hinv h hs
  | remove t =>
      obtain ⟨e, x, ht, rfl⟩ := step_remove.mp hs
      have hin : (q.thread t).HoldsQueue := by
        rw [ht]
        trivial
      have hdata := h.shelled t e (by rw [ht]; rfl)
      have hsame := h.status_same (t := t) (p := .leaving (.item x))
        (by rw [ht]; rfl)
      refine ⟨o, .refl o, abstracts_inside hinv hin hsame h.history
        (fun _ => ?_) (by simp [Point.shell])⟩
      rw [hdata, removeAt_insertAt]
  | lockPushed t =>
      obtain ⟨ht, -, rfl⟩ := step_lockPushed.mp hs
      exact h.silent rfl (by rw [ht]; rfl) (by rw [ht]; rfl) rfl rfl
  | notifyOne t woken =>
      cases woken with
      | none =>
          obtain ⟨ht, -, rfl⟩ := step_notify_none.mp hs
          exact h.silent rfl (by rw [ht]; rfl) (by rw [ht]; rfl) rfl rfl
      | some u =>
          obtain ⟨ht, hu, rfl⟩ := step_notify_some.mp hs
          have hblocked := (hinv.sleepers u).mp hu
          have hne : u ≠ t := by
            rintro rfl
            rw [ht] at hblocked
            cases hblocked
          -- the push goes on, and then the one it wakes
          obtain ⟨o₁, hreach, h₁⟩ : ∃ o', Lts.Reaches (Atomic.step deque) o o'
              ∧ Abstracts (q.goTo t .signalled) o' :=
            h.silent rfl (by rw [ht]; rfl) (by rw [ht]; rfl) rfl rfl
          have hu' : (q.goTo t .signalled).thread u = .blocked :=
            (Function.update_of_ne hne ..).trans hblocked
          obtain ⟨o₂, hreach', h₂⟩ : ∃ o', Lts.Reaches (Atomic.step deque) o₁ o'
              ∧ Abstracts { (q.goTo t .signalled).goTo u .woken with
                mItemPushed := q.mItemPushed.erase u } o' :=
            h₁.silent rfl (by rw [hu']; rfl) (by rw [hu']; rfl) rfl rfl
          exact ⟨o₂, hreach.trans hreach', h₂⟩
  | unlockPushed t =>
      obtain ⟨ht, rfl⟩ := step_unlockPushed.mp hs
      exact h.silent rfl (by rw [ht]; rfl) (by rw [ht]; rfl) rfl rfl
  | unlock t =>
      obtain ⟨p, hp, rfl⟩ := step_unlock.mp hs
      rcases hp with ⟨a, ht, rfl⟩ | ⟨ht, rfl⟩
      · exact h.silent rfl (by rw [ht]; rfl) (by rw [ht]; rfl) rfl rfl
      · exact h.silent rfl (by rw [ht]; rfl) (by rw [ht]; rfl) rfl rfl
  | ret t =>
      obtain ⟨a, ht, rfl⟩ := step_ret.mp hs
      have hperformed : o.status t = .performed a := by
        rw [h.status, ht]
        rfl
      exact ⟨_, (Lts.Reaches.refl o).snoc (Atomic.step_answer hperformed),
        h.move rfl (by rw [ht]; rfl) rfl rfl (h.status_update rfl)
          (congrArg (· ++ [_]) h.history)⟩
  | lockWait t =>
      obtain ⟨ht, -, rfl⟩ := step_lockWait.mp hs
      exact h.silent rfl (by rw [ht]; rfl) (by rw [ht]; rfl) rfl rfl
  | sleep t =>
      obtain ⟨ht, rfl⟩ := step_sleep.mp hs
      exact h.silent rfl (by rw [ht]; rfl) (by rw [ht]; rfl) rfl rfl
  | wake t =>
      obtain ⟨ht, rfl⟩ := step_wake.mp hs
      have hblocked := (hinv.sleepers t).mp ht
      exact h.silent rfl (by rw [hblocked]; rfl) (by rw [hblocked]; rfl)
        rfl rfl
  | relock t =>
      obtain ⟨ht, -, rfl⟩ := step_relock.mp hs
      exact h.silent rfl (by rw [ht]; rfl) (by rw [ht]; rfl) rfl rfl
  | unlockWait t =>
      obtain ⟨ht, rfl⟩ := step_unlockWait.mp hs
      exact h.silent rfl (by rw [ht]; rfl) (by rw [ht]; rfl) rfl rfl

/-- Every reachable state stands for one that the atomic deque reaches. -/
theorem reaches_abstract {acts : List (Action T)}
    (hrun : Lts.run step {} acts = some q) :
    Inv q ∧ ∃ o, Lts.Reaches (Atomic.step deque) (Atomic.start []) o
      ∧ Abstracts q o := by
  have hstart : Abstracts ({} : SharedQueue T) (Atomic.start []) := by
    refine ⟨fun _ => rfl, rfl, fun _ => rfl, fun t e he => ?_⟩
    cases he
  refine Lts.run_invariant (fun q => Inv q ∧ ∃ o,
    Lts.Reaches (Atomic.step deque) (Atomic.start []) o ∧ Abstracts q o)
    ?_ ⟨inv_start, _, .refl _, hstart⟩ hrun
  rintro q act q' ⟨hinv, o, hreach, h⟩ hs
  obtain ⟨o', hreach', h'⟩ := abstracts_step hinv h hs
  exact ⟨inv_step hinv hs, o', hreach.trans hreach', h'⟩

-- =============================================================== results

/-- Whatever the threads call and however their steps interleave, they
see what an atomic deque would have shown them. -/
theorem linearizable (acts : List (Action T))
    (hrun : Lts.run step {} acts = some q) :
    Atomic.Linearizable deque [] q.history := by
  obtain ⟨-, o, hreach, h⟩ := reaches_abstract hrun
  exact ⟨o, hreach, h.history⟩

/-- One thread waits and is woken by the push of another, which then asks
for the size while the first one pops. -/
def handover : List (Action Nat) :=
  [.call 1 .wait, .lock 1, .body 1, .unlock 1, .call 2 (.push .back 7),
    .lock 2, .lockWait 1, .sleep 1, .body 2, .lockPushed 2,
    .notifyOne 2 (some 1), .unlockPushed 2, .unlock 2, .ret 2, .relock 1,
    .unlockWait 1, .lock 1, .body 1, .unlock 1, .ret 1, .call 2 .size,
    .call 1 (.pop .front), .lock 1, .body 1, .remove 1, .unlock 1, .lock 2,
    .body 2, .unlock 2, .ret 2, .ret 1]

theorem linearizable_handover :
    ∃ q : SharedQueue Nat, Lts.run step {} handover = some q
      ∧ q.history = [.call 1 .wait, .call 2 (.push .back 7),
          .answer 2 .done, .answer 1 .done, .call 2 .size,
          .call 1 (.pop .front), .answer 2 (.count 0),
          .answer 1 (.item (some 7))]
      ∧ Atomic.Linearizable deque [] q.history :=
  ⟨_, rfl, rfl, linearizable handover rfl⟩

end SharedQueue

end AWEnginePacket
