/-
A `PacketServer` from its constructor to its destructor.

`service` is the server at work; here are the `io_context` it works with,
the thread that runs it, and the `async_accept`s outstanding. The stopped
state of `m_IoContext` is set by `stop()` and by a `run()` that is out of
work, and cleared by nothing: the code never calls `restart()`.

The io thread runs a handler of the service only while it is in `run()`
and the context is not stopped. A handler that has begun ends, whatever
is called meanwhile; the handler of an accept has one more thing to do
when the client is in the container, and that is its
`WaitForClientConnection()`.

`Stop()` is two steps, as the io thread goes on until it is joined. The
destructor is a `Stop()` and then the members, the last declared first:
the acceptor, the thread, the `io_context`, and only then the container
and the queue, with the sockets of the connections that they own.
-/
import AWEnginePacket.Model.Client
import AWEnginePacket.Model.Service

namespace AWEnginePacket

open Endian (ByteOrder)

namespace Lifetime

open PacketClient (ThreadHandle)

/-- Where the user's thread is. -/
inductive User
  /-- Outside of `Start()`, `Stop()` and the destructor. -/
  | free
  /-- In `Stop()`, past its `m_IoContext.stop()`. -/
  | stopping (destroying : Bool)
deriving DecidableEq, Repr

/-- How it ended. -/
inductive Fate
  /-- The destructor ran to its end. -/
  | destroyed
  /-- A socket was destroyed after the `io_context` it belongs to. -/
  | outlivedContext
  /-- `std::terminate()`: a thread assigned to a joinable handle. -/
  | joinableAssigned
  /-- `std::terminate()`: a joinable handle destroyed. -/
  | joinableDestroyed
  /-- A handler of a destroyed connection ran. -/
  | danglingHandler
deriving DecidableEq, Repr

/-- How a method ends other than by returning. -/
inductive Exit
  | thrown (e : Fault)
  | terminated (fate : Fate)
deriving DecidableEq, Repr

end Lifetime

open Lifetime
open PacketClient (ThreadHandle)

/-- A `PacketServer`, its two threads, and what it waits for. -/
structure Lifetime where
  service : Service := Service.start
  mIoContextStopped : Bool := false
  mThreadContext : ThreadHandle := .none
  /-- `async_accept`s outstanding. -/
  accepting : Nat := 0
  /-- The io thread is in the handler of one, in front of its
  `WaitForClientConnection()`. -/
  handling : Bool := false
  user : User := .free
  fate : Option Fate := none

/-- Methods of a server: they may throw, and keep what they did. -/
abbrev LifetimeM := EStateM Exit Lifetime

namespace Lifetime

/-- The constructor: the acceptor takes its endpoint or throws, and the
parser is tested. -/
def create (binds hasParser : Bool) : Except Fault Lifetime := do
  if !binds then
    throw (.runtimeError "std::system_error")
  if !hasParser then
    throw (.runtimeError "No parser provided")
  pure {}

/-- `WaitForClientConnection()`. -/
def waitForClientConnection : LifetimeM PUnit :=
  modify fun l => { l with accepting := l.accepting + 1 }

/-- `m_ThreadContext = std::thread(…)`. -/
def startThread (threadStarts : Bool) : LifetimeM PUnit := do
  if !threadStarts then
    throw (.thrown (.runtimeError "std::system_error"))
  if (← get).mThreadContext.joinable then
    throw (.terminated .joinableAssigned)
  modify fun l => { l with mThreadContext := .running }

/-- The `catch` of `Start()`, for a `std::exception`. -/
def startFailed : Exit → LifetimeM Bool
  | .thrown _ => pure false
  | .terminated fate => throw (.terminated fate)

/-- `Start()`. -/
def start (threadStarts : Bool) : LifetimeM Bool :=
  tryCatch
    (do waitForClientConnection
        startThread threadStarts
        pure true)
    startFailed

/-- `Stop()`, called by the user or the destructor: `m_IoContext.stop()`. -/
def stop (destroying : Bool) (l : Lifetime) : Lifetime :=
  { l with mIoContextStopped := true, user := .stopping destroying }

/-- Somebody in the container or in the queue has a socket. -/
def ownsSockets (s : Service) : Bool :=
  s.mConnections.any (·.isSome) || s.mMessageInQueue.any (·.first.isSome)

/-- The end of `~PacketServer()`: the members are destroyed. -/
def destroyMembers (l : Lifetime) : Lifetime :=
  if l.mThreadContext.joinable then { l with fate := some .joinableDestroyed }
  else if ownsSockets l.service then
    { l with fate := some .outlivedContext }
  else { l with fate := some .destroyed }

/-- `Stop()`: the thread is joined if it can be. The destructor goes on to
the members. -/
def join (destroying : Bool) (l : Lifetime) : Lifetime :=
  let l := { l with mThreadContext := .none, user := .free }
  if destroying then destroyMembers l else l

-- ================================================================ steps

/-- One step: the user's thread, then the io thread; `serve` is a step of
the service, of either. -/
inductive Action
  | start (threadStarts : Bool)
  | stop (destroying : Bool)
  | join
  | serve (a : Service.Action)
  | acceptFailed
  | waitForClientConnection
  | runReturns
  | danglingHandler (k : Nat)

/-- The io thread is in `run()`, and the context is not stopped. -/
def runs (l : Lifetime) : Bool :=
  l.mThreadContext = .running && !l.mIoContextStopped

/-- A handler can begin. -/
def canHandle (l : Lifetime) : Bool := l.runs && !l.handling

/-- There is nothing left for `run()` to wait for. -/
def outOfWork (l : Lifetime) : Bool :=
  l.accepting == 0 && (List.range l.service.created).all
    fun k => !(l.service.connection k).hasPending

/-- A connection that nobody owns has handlers outstanding. -/
def dangles (k : Nat) (s : Service) : Bool :=
  k < s.created && !s.owns k && (s.connection k).hasPending

/-- A method called by the user. -/
def userCall {α : Type} (m : LifetimeM α) (l : Lifetime) : Lifetime :=
  match m.run l with
  | .ok _ l' => l'
  | .error (.thrown _) l' => l'
  | .error (.terminated fate) l' => { l' with fate := some fate }

/-- The user's thread is in none of the server's methods. -/
def isFree (l : Lifetime) : Bool :=
  l.user = .free && l.service.task.isIdle

variable (host : ByteOrder) (ids : PacketIDs)

/-- A step of the service, on the thread that takes it. -/
def serve (a : Service.Action) (l : Lifetime) : Option Lifetime :=
  match a with
  | .accept _ _ _ =>
      if l.canHandle && 0 < l.accepting then
        (Service.step host ids a l.service).map fun service =>
          { l with service, accepting := l.accepting - 1, handling := true }
      else none
  | .io _ _ =>
      if l.canHandle then
        (Service.step host ids a l.service).map fun service =>
          { l with service }
      else none
  | _ =>
      if l.user = .free then
        (Service.step host ids a l.service).map fun service =>
          { l with service }
      else none

/-- One step, where it is enabled. -/
def event (a : Action) (l : Lifetime) : Option Lifetime :=
  match a with
  | .start threadStarts =>
      if l.isFree then some (userCall (start threadStarts) l) else none
  | .stop destroying =>
      if l.isFree then some (stop destroying l) else none
  | .join =>
      match l.user with
      | .stopping destroying =>
          if l.mThreadContext ≠ .running then some (join destroying l)
          else none
      | .free => none
  | .serve a => serve host ids a l
  | .acceptFailed =>
      if l.canHandle && 0 < l.accepting then
        some { l with accepting := l.accepting - 1, handling := true }
      else none
  | .waitForClientConnection =>
      if l.handling then
        some { Effect.after waitForClientConnection l with handling := false }
      else none
  | .runReturns =>
      if l.mThreadContext = .running ∧ l.handling = false
          ∧ (l.mIoContextStopped = true ∨ l.outOfWork = true) then
        some { l with mThreadContext := .returned, mIoContextStopped := true }
      else none
  | .danglingHandler k =>
      if l.canHandle && dangles k l.service then
        some { l with fate := some .danglingHandler }
      else none

/-- One step, as long as the program lives. -/
def step (a : Action) (l : Lifetime) : Option Lifetime :=
  if l.fate.isSome || l.service.terminated then none
  else event host ids a l

end Lifetime

end AWEnginePacket
