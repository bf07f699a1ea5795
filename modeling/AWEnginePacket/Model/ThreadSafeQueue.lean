/-
`ThreadSafeQueue`, step by step: one thread that waits for items and
takes them, and any number of threads that push.

The two mutexes are the threads that hold them. A push holds
`m_MutesQueue` from before it appends until it is over, and takes
`m_MutexItemPushed` to notify. `wait()` takes the first for the length
of each test, and the second only around its sleep. A sleep gives the
mutex up and ends in a wake-up, notified or spurious, that has to take
it again; `signalled` is a notification the sleeper has not acted on.
-/
import AWEnginePacket.Lib.Lts
import Mathlib.Logic.Function.Basic

namespace AWEnginePacket

namespace ThreadSafeQueue

/-- Who may hold a mutex. -/
inductive Thread
  | consumer
  | producer (p : Nat)
deriving DecidableEq, Repr

/-- Where the consumer is. -/
inductive Consumer
  /-- Outside of `wait()`. -/
  | idle
  /-- In front of the test of the loop. -/
  | testing
  /-- `empty()` was true. -/
  | sawEmpty
  /-- Has locked `m_MutexItemPushed`. -/
  | locked
  /-- Asleep in `m_ItemPushed.wait(ul)`. -/
  | blocked
  /-- Woken, and locking the mutex again. -/
  | woken
  /-- Out of `m_ItemPushed.wait(ul)`. -/
  | relocked
deriving DecidableEq, Repr

/-- Where a producer is. -/
inductive Producer
  /-- Outside of a push. -/
  | idle
  /-- Has locked `m_MutesQueue` and put its item in. -/
  | appended
  /-- Has locked `m_MutexItemPushed`. -/
  | locked
  /-- Has called `m_ItemPushed.notify_one()`. -/
  | notified
  /-- Has unlocked `m_MutexItemPushed`. -/
  | unlocked
deriving DecidableEq, Repr

/-- `push_front` and `push_back`. -/
inductive End
  | front
  | back
deriving DecidableEq, Repr

end ThreadSafeQueue

open ThreadSafeQueue

/-- A `ThreadSafeQueue<T>` and the threads that use it. -/
structure ThreadSafeQueue (T : Type) where
  mData : List T := []
  mMutesQueue : Option Thread := none
  mMutexItemPushed : Option Thread := none
  signalled : Bool := false
  consumer : Consumer := .idle
  producer : Nat → Producer := fun _ => .idle

namespace ThreadSafeQueue

variable {T : Type}

/-- One step of one thread: the consumer's, then the `p`-th producer's. -/
inductive Action (T : Type)
  | popFront
  | wait
  | empty
  | lockItemPushed
  | block
  | wake
  | relock
  | unlockItemPushed
  | push (p : Nat) (e : End) (item : T)
  | pushLock (p : Nat)
  | notifyOne (p : Nat)
  | pushUnlock (p : Nat)
  | pushReturn (p : Nat)

/-- An item at one end. -/
def insertAt (e : End) (item : T) (data : List T) : List T :=
  match e with
  | .front => item :: data
  | .back => data ++ [item]

/-- A producer goes on. -/
def setProducer (q : ThreadSafeQueue T) (p : Nat) (pc : Producer) :
    ThreadSafeQueue T :=
  { q with producer := Function.update q.producer p pc }

/-- One step, where it is enabled. -/
def step (a : Action T) (q : ThreadSafeQueue T) :
    Option (ThreadSafeQueue T) :=
  match a with
  | .popFront =>
      if q.consumer = .idle ∧ q.mMutesQueue = none ∧ q.mData ≠ [] then
        some { q with mData := q.mData.tail }
      else none
  | .wait =>
      if q.consumer = .idle then
        some { q with consumer := .testing }
      else none
  | .empty =>
      if q.consumer = .testing ∧ q.mMutesQueue = none then
        some { q with
          consumer := if q.mData.isEmpty then .sawEmpty else .idle }
      else none
  | .lockItemPushed =>
      if q.consumer = .sawEmpty ∧ q.mMutexItemPushed = none then
        some { q with consumer := .locked, mMutexItemPushed := some .consumer }
      else none
  | .block =>
      if q.consumer = .locked then
        some { q with consumer := .blocked, mMutexItemPushed := none
                      signalled := false }
      else none
  | .wake =>
      -- notified or spurious
      if q.consumer = .blocked then
        some { q with consumer := .woken, signalled := false }
      else none
  | .relock =>
      if q.consumer = .woken ∧ q.mMutexItemPushed = none then
        some { q with consumer := .relocked
                      mMutexItemPushed := some .consumer }
      else none
  | .unlockItemPushed =>
      if q.consumer = .relocked then
        some { q with consumer := .testing, mMutexItemPushed := none }
      else none
  | .push p e item =>
      if q.producer p = .idle ∧ q.mMutesQueue = none then
        some { q.setProducer p .appended with
          mMutesQueue := some (.producer p)
          mData := insertAt e item q.mData }
      else none
  | .pushLock p =>
      if q.producer p = .appended ∧ q.mMutexItemPushed = none then
        some { q.setProducer p .locked with
          mMutexItemPushed := some (.producer p) }
      else none
  | .notifyOne p =>
      if q.producer p = .locked then
        some { q.setProducer p .notified with
          signalled := q.signalled || q.consumer = .blocked }
      else none
  | .pushUnlock p =>
      if q.producer p = .notified then
        some { q.setProducer p .unlocked with mMutexItemPushed := none }
      else none
  | .pushReturn p =>
      if q.producer p = .unlocked then
        some { q.setProducer p .idle with mMutesQueue := none }
      else none

end ThreadSafeQueue

end AWEnginePacket
