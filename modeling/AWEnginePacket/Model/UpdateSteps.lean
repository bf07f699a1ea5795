/-
`PacketServer::Update()` among the threads that fill its queue.

`PacketServer.update` is a call that nobody interferes with. Here the
thread that calls it is one thread of a `ThreadSafeQueue`, and the
connections' threads push in between any two of its steps: `empty()` and
`pop_front()` are critical sections of their own, and so is each test in
`wait()`. A `push_back()` in `AddToIncomingMessageQueue()` is the steps of
a producer.

`messageIndex` and the bound are `size_t`; the loop's test for a negative
bound is always false and left out. The callbacks run while the queue is
not locked, and work on the user's data only, so a round of the loop past
its `pop_front()` is one step. `batch`, `calls` and `pushed` are history
variables: no step looks at them.
-/
import AWEnginePacket.Model.ThreadSafeQueue
import AWEnginePacket.Model.Update

namespace AWEnginePacket

namespace ThreadSafeQueue.Action

variable {T : Type}

/-- A step of a `push_back()`. -/
def isPushBack : Action T → Bool
  | .push _ .back _ => true
  | .pushLock _ => true
  | .notifyOne _ => true
  | .pushUnlock _ => true
  | .pushReturn _ => true
  | _ => false

/-- A step inside of `wait()`. -/
def isWait : Action T → Bool
  | .empty => true
  | .lockItemPushed => true
  | .block => true
  | .wake => true
  | .relock => true
  | .unlockItemPushed => true
  | _ => false

/-- What a step puts in. -/
def item : Action T → Option T
  | .push _ _ item => some item
  | _ => none

end ThreadSafeQueue.Action

namespace PacketServer

/-- Where the thread that calls `Update()` is. -/
inductive Updater
  /-- Outside of `Update()`. -/
  | idle
  /-- In `wait()`. -/
  | waiting
  /-- In front of `if(maximumMessages == 0)`. -/
  | entered
  /-- In front of the test of the loop. -/
  | testing
  /-- In front of `pop_front()`. -/
  | popping
  /-- In the body of the loop, with a message. -/
  | handing (msg : OwnedMessage)
  /-- In `front()` of an empty deque. -/
  | undefined
deriving DecidableEq, Repr

/-- A call of `Update()` that has ended: its bound, the messages it
handed out, what it returned or threw, and whether the last `empty()` was
true. -/
structure UpdateCall where
  maximumMessages : UInt64
  batch : List OwnedMessage
  outcome : Except Fault UInt64
  sawEmpty : Bool

/-- A server's queue, the thread that calls `Update()`, and what has
happened. -/
structure Updating (σ : Type) where
  mMessageInQueue : ThreadSafeQueue OwnedMessage := {}
  user : σ
  updater : Updater := .idle
  maximumMessages : UInt64 := 0
  messageIndex : UInt64 := 0
  /-- Handed out by the call in progress. -/
  batch : List OwnedMessage := []
  /-- The calls that have ended. -/
  calls : List UpdateCall := []
  /-- Pushed so far. -/
  pushed : List OwnedMessage := []

variable {σ : Type} (callbacks : UpdateCallbacks σ)

/-- The rest of the body of the loop of `Update()`, for the message it has
popped. -/
def handOut (msg : OwnedMessage) : UpdateM σ PUnit := do
  if PacketFlags.test msg.second.header.flags PacketFlags.compressed then
    throw compressionFault
  let info ← messageArrived callbacks msg
  let packet ← callUser (callbacks.parsePacket info)
  packetArrived callbacks msg.first packet

namespace Updating

/-- `Update()` returns or throws. -/
def leave (s : Updating σ) (outcome : Except Fault UInt64)
    (sawEmpty : Bool) : Updating σ :=
  { s with
    updater := .idle
    messageIndex := 0
    batch := []
    calls := s.calls ++ [⟨s.maximumMessages, s.batch, outcome, sawEmpty⟩] }

/-- A step of one of the queue's threads. -/
def queueStep (a : ThreadSafeQueue.Action OwnedMessage) (s : Updating σ) :
    Option (Updating σ) :=
  (ThreadSafeQueue.step a s.mMessageInQueue).map fun q =>
    { s with mMessageInQueue := q }

/-- One step: a connection's thread, then the one that calls
`Update()`. -/
inductive Action
  | pushBack (a : ThreadSafeQueue.Action OwnedMessage)
  | update (maximumMessages : UInt64) (waitForMessage : Bool)
  | wait (a : ThreadSafeQueue.Action OwnedMessage)
  | waited
  | enter
  | test
  | popFront
  | handOut

/-- The test of the loop, with `m_MessageInQueue` free. -/
def test (s : Updating σ) : Updating σ :=
  if s.mMessageInQueue.mData.isEmpty then
    s.leave (.ok s.messageIndex) true
  else if s.messageIndex < s.maximumMessages then
    { s with updater := .popping }
  else s.leave (.ok s.messageIndex) false

/-- `pop_front()`, with `m_MessageInQueue` free. -/
def popFront (s : Updating σ) : Option (Updating σ) :=
  match s.mMessageInQueue.mData with
  | [] => some { s with updater := .undefined }
  | msg :: _ => queueStep .popFront { s with updater := .handing msg }

/-- The rest of a round. -/
def round (msg : OwnedMessage) (s : Updating σ) : Updating σ :=
  match (PacketServer.handOut callbacks msg).run
    ⟨s.mMessageInQueue.mData, s.user⟩ with
  | .ok _ u =>
      { s with
        user := u.user
        updater := .testing
        messageIndex := s.messageIndex + 1
        batch := s.batch ++ [msg] }
  | .error e u => { s with user := u.user }.leave (.error e) false

/-- One step, where it is enabled. -/
def step (a : Action) (s : Updating σ) : Option (Updating σ) :=
  match a with
  | .pushBack a =>
      if a.isPushBack then
        queueStep a { s with pushed := s.pushed ++ a.item.toList }
      else none
  | .update maximumMessages waitForMessage =>
      if s.updater = .idle then
        if waitForMessage then
          queueStep .wait { s with updater := .waiting, maximumMessages }
        else some { s with updater := .entered, maximumMessages }
      else none
  | .wait a =>
      if s.updater = .waiting ∧ a.isWait = true then queueStep a s else none
  | .waited =>
      if s.updater = .waiting ∧ s.mMessageInQueue.consumer = .idle then
        some { s with updater := .entered }
      else none
  | .enter =>
      if s.updater = .entered then
        some (if s.maximumMessages = 0 then s.leave (.ok 0) false
          else { s with updater := .testing })
      else none
  | .test =>
      if s.updater = .testing ∧ s.mMessageInQueue.mMutesQueue = none then
        some s.test
      else none
  | .popFront =>
      if s.updater = .popping ∧ s.mMessageInQueue.mMutesQueue = none then
        s.popFront
      else none
  | .handOut =>
      match s.updater with
      | .handing msg => some (round callbacks msg s)
      | _ => none

end Updating

end PacketServer

end AWEnginePacket
