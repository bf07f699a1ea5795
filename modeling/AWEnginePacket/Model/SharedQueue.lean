/-
`ThreadSafeQueue` with any number of threads, each of which may call any
of its methods.

A method is taken apart where another thread can come between: at the
locking and unlocking of `m_MutesQueue` and `m_MutexItemPushed`, at the
sleep in `m_ItemPushed.wait(ul)`, and, under the mutex, at what is more
than one operation on `m_Data` (a pop moves the item out and then takes
the shell it left off the deque).

`history` is what the threads see: their calls, and what came back.
`peek_*` gives a reference; its answer here is the item that it refers
to at that moment.
-/
import AWEnginePacket.Lib.Atomic
import AWEnginePacket.Model.ThreadSafeQueue
import Mathlib.Data.Finset.Basic

namespace AWEnginePacket

namespace SharedQueue

open ThreadSafeQueue (End insertAt)

variable {T : Type}

/-- A method, and what it is called with. -/
inductive Call (T : Type)
  | peek (e : End)
  | pop (e : End)
  | push (e : End) (item : T)
  | empty
  | size
  | clear
  | wait
deriving DecidableEq

/-- What a method gives back: `none` would be an item that has been moved
from. -/
inductive Answer (T : Type)
  | item (item : Option T)
  | isEmpty (b : Bool)
  | count (n : Nat)
  | done
deriving DecidableEq

/-- Where a thread is. -/
inductive Point (T : Type)
  /-- Outside of the queue. -/
  | idle
  /-- In front of the lock of `m_MutesQueue`. -/
  | entering (c : Call T)
  /-- Has locked it. -/
  | inside (c : Call T)
  /-- A pop has moved the item out. -/
  | moved (e : End) (item : Option T)
  /-- A push has put its item in. -/
  | pushed
  /-- A push has locked `m_MutexItemPushed` too. -/
  | signalling
  /-- A push has called `m_ItemPushed.notify_one()`. -/
  | signalled
  /-- Done, in front of the unlock of `m_MutesQueue`. -/
  | leaving (a : Answer T)
  /-- Has unlocked it. -/
  | left (a : Answer T)
  /-- `empty()` is true in `wait()`, and `m_MutesQueue` still held. -/
  | foundEmpty
  /-- `empty()` has returned. -/
  | sawEmpty
  /-- Has locked `m_MutexItemPushed` to sleep. -/
  | locked
  /-- Asleep in `m_ItemPushed.wait(ul)`. -/
  | blocked
  /-- Woken, and locking the mutex again. -/
  | woken
  /-- Out of `m_ItemPushed.wait(ul)`. -/
  | relocked
deriving DecidableEq

end SharedQueue

open SharedQueue

/-- A `ThreadSafeQueue<T>` and the threads that use it. `mItemPushed` is
who waits on the condition variable. -/
structure SharedQueue (T : Type) where
  mData : List (Option T) := []
  mMutesQueue : Option Nat := none
  mMutexItemPushed : Option Nat := none
  mItemPushed : Finset Nat := ∅
  thread : Nat → Point T := fun _ => .idle
  history : List (Atomic.Event Nat (Call T) (Answer T)) := []

namespace SharedQueue

open ThreadSafeQueue (End insertAt)

variable {T α : Type}

/-- One step of the thread `t`. -/
inductive Action (T : Type)
  | call (t : Nat) (c : Call T)
  | lock (t : Nat)
  | body (t : Nat)
  | remove (t : Nat)
  | lockPushed (t : Nat)
  | notifyOne (t : Nat) (woken : Option Nat)
  | unlockPushed (t : Nat)
  | unlock (t : Nat)
  | ret (t : Nat)
  | lockWait (t : Nat)
  | sleep (t : Nat)
  | wake (t : Nat)
  | relock (t : Nat)
  | unlockWait (t : Nat)

/-- `m_Data.front()` and `m_Data.back()`. -/
def itemAt (e : End) (data : List α) : Option α :=
  match e with
  | .front => data.head?
  | .back => data.getLast?

/-- `m_Data.pop_front()` and `m_Data.pop_back()`. -/
def removeAt (e : End) (data : List α) : List α :=
  match e with
  | .front => data.tail
  | .back => data.dropLast

/-- What a method does to `m_Data` before anything else, and where that
leaves the thread. Nothing where it is undefined. -/
def body (c : Call T) (data : List (Option T)) :
    Option (Point T × List (Option T)) :=
  match c with
  | .peek e => (itemAt e data).map fun x => (.leaving (.item x), data)
  | .pop e => (itemAt e data).map fun x =>
      (.moved e x, insertAt e none (removeAt e data))
  | .push e item => some (.pushed, insertAt e (some item) data)
  | .empty => some (.leaving (.isEmpty data.isEmpty), data)
  | .size => some (.leaving (.count data.length), data)
  | .clear => some (.leaving .done, [])
  | .wait => some (if data.isEmpty then .foundEmpty else .leaving .done, data)

/-- A thread goes on. -/
def goTo (q : SharedQueue T) (t : Nat) (p : Point T) : SharedQueue T :=
  { q with thread := Function.update q.thread t p }

/-- One step, where it is enabled. -/
def step (a : Action T) (q : SharedQueue T) : Option (SharedQueue T) :=
  match a with
  | .call t c =>
      match q.thread t with
      | .idle => some { q.goTo t (.entering c) with
          history := q.history ++ [.call t c] }
      | _ => none
  | .lock t =>
      match q.thread t, q.mMutesQueue with
      | .entering c, none =>
          some { q.goTo t (.inside c) with mMutesQueue := some t }
      | _, _ => none
  | .body t =>
      match q.thread t with
      | .inside c =>
          match body c q.mData with
          | some (p, data) => some { q.goTo t p with mData := data }
          | none => none
      | _ => none
  | .remove t =>
      match q.thread t with
      | .moved e x => some { q.goTo t (.leaving (.item x)) with
          mData := removeAt e q.mData }
      | _ => none
  | .lockPushed t =>
      match q.thread t, q.mMutexItemPushed with
      | .pushed, none =>
          some { q.goTo t .signalling with mMutexItemPushed := some t }
      | _, _ => none
  | .notifyOne t woken =>
      match q.thread t with
      | .signalling =>
          match woken with
          | some u =>
              -- any one of those who wait
              if u ∈ q.mItemPushed then
                some { (q.goTo t .signalled).goTo u .woken with
                  mItemPushed := q.mItemPushed.erase u }
              else none
          | none =>
              if q.mItemPushed = ∅ then some (q.goTo t .signalled) else none
      | _ => none
  | .unlockPushed t =>
      match q.thread t with
      | .signalled =>
          some { q.goTo t (.leaving .done) with mMutexItemPushed := none }
      | _ => none
  | .unlock t =>
      match q.thread t with
      | .leaving a => some { q.goTo t (.left a) with mMutesQueue := none }
      | .foundEmpty => some { q.goTo t .sawEmpty with mMutesQueue := none }
      | _ => none
  | .ret t =>
      match q.thread t with
      | .left a => some { q.goTo t .idle with
          history := q.history ++ [.answer t a] }
      | _ => none
  | .lockWait t =>
      match q.thread t, q.mMutexItemPushed with
      | .sawEmpty, none =>
          some { q.goTo t .locked with mMutexItemPushed := some t }
      | _, _ => none
  | .sleep t =>
      match q.thread t with
      | .locked => some { q.goTo t .blocked with
          mMutexItemPushed := none
          mItemPushed := insert t q.mItemPushed }
      | _ => none
  | .wake t =>
      -- spurious
      if t ∈ q.mItemPushed then
        some { q.goTo t .woken with mItemPushed := q.mItemPushed.erase t }
      else none
  | .relock t =>
      match q.thread t, q.mMutexItemPushed with
      | .woken, none =>
          some { q.goTo t .relocked with mMutexItemPushed := some t }
      | _, _ => none
  | .unlockWait t =>
      match q.thread t with
      | .relocked =>
          some { q.goTo t (.entering .wait) with mMutexItemPushed := none }
      | _ => none

end SharedQueue

end AWEnginePacket
