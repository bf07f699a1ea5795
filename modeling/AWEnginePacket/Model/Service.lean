/-
A `PacketServer` at work: its container, the objects behind it, the
queue of received messages, and the two threads.

# State

`mMessageInQueue` is the queue all connections push into; a message in
it owns its connection, as an entry of `m_Connections` does.
`disconnected` is the arguments `OnClientDisconnect` has been called
with. `task` is where the user's thread is in `Send_AllClients()` or
`SendKeepAlive()`.

# Steps

The io thread runs handlers and accepts clients. Handlers come in
between any two steps of the user's thread, so the loops over
`m_Connections` are taken one entry at a time, and a `Send` in them is
three steps: the loop's `IsConnected()`, the call up to its post, the
post. A client is accepted between operations: `push_back` during a
loop is a data race on the container.

A connection that nobody owns is destroyed. What was outstanding on it
stays outstanding: its handlers run later with an error code and a
dangling `this`, and there the model stops.
-/
import AWEnginePacket.Model.Server

namespace AWEnginePacket

open Endian (ByteOrder)

namespace Service

/-- Whose loop over `m_Connections` it is. -/
inductive Loop
  /-- The first loop of `SendKeepAlive()`. -/
  | keepAlive (oldestKeepAlive : TimePoint)
  /-- The loop of `Send_AllClients()`. -/
  | allClients (packet : IPacket) (ignoredClient : Option Nat)

/-- What a loop does with an entry. -/
inductive Visit
  | leave
  | send (k : Nat)
  | drop
deriving DecidableEq, Repr

/-- Where the user's thread is. -/
inductive Task
  /-- Between operations. -/
  | idle
  /-- In front of the `i`-th entry. -/
  | looping (loop : Loop) (i : Nat) (invalidClientExists : Bool)
  /-- The `i`-th entry was connected, and `Send` comes next. -/
  | sending (packet : IPacket) (ignoredClient : Option Nat) (i : Nat)
      (invalidClientExists : Bool) (k : Nat)
  /-- In that `Send`, in front of its `asio::post`. -/
  | posting (packet : IPacket) (ignoredClient : Option Nat) (i : Nat)
      (invalidClientExists : Bool) (k : Nat)
  /-- Between the two halves of `SendKeepAlive()`. -/
  | pinging

/-- Between operations. -/
def Task.isIdle : Task → Bool
  | .idle => true
  | _ => false

/-- What the loop makes of an entry. -/
def Loop.visit (s : PacketServer) : Loop → Option Nat → Visit
  | .keepAlive oldestKeepAlive, p =>
      if s.isDead oldestKeepAlive p then .drop else .leave
  | .allClients _ ignoredClient, some k =>
      if (s.connection k).isConnected then
        if some k ≠ ignoredClient then .send k else .leave
      else if (s.connection k).isConnecting then .leave
      else .drop
  | .allClients _ _, none => .drop

end Service

open Service

/-- A `PacketServer`, its queue and its two threads. -/
structure Service extends PacketServer where
  mMessageInQueue : List OwnedMessage := []
  /-- Connections made so far. -/
  created : Nat := 0
  disconnected : List (Option Nat) := []
  task : Task := .idle
  /-- An exception has left a handler. -/
  terminated : Bool := false

namespace Service

/-- A server that has started. -/
def start : Service :=
  { mConnections := []
    connection := fun k => Connection.create k .toClient false [] 0 }

/-- Somebody holds a `shared_ptr` to the connection. -/
def owns (s : Service) (k : Nat) : Bool :=
  s.mConnections.contains (some k)
    || s.mMessageInQueue.any (·.first == some k)

/-- A connection's state changes. -/
def setConnection (s : Service) (k : Nat) (c : Connection) : Service :=
  { s with connection := Function.update s.connection k c }

/-- `async_accept` completes, and `OnClientConnect` approves or not; a
connection that is denied is destroyed. -/
def accept (approved : Bool) (incoming : List UInt8) (now : TimePoint)
    (s : Service) : Service :=
  let newConnection := Connection.create s.created .toClient true incoming now
  if approved then
    { s with
      mConnections := s.mConnections ++ [some s.created]
      connection := Function.update s.connection s.created
        (Effect.after Connection.connectToClient newConnection)
      created := s.created + 1 }
  else
    { s with
      connection := Function.update s.connection s.created newConnection
      created := s.created + 1 }

/-- A dead connection: `OnClientDisconnect(connection)`, then
`connection.reset()`. -/
def drop (i : Nat) (p : Option Nat) (s : Service) : Service :=
  { s with
    mConnections := s.mConnections.set i none
    disconnected := s.disconnected ++ [p] }

/-- `erase(remove(begin, end, nullptr), end)`, where a flag asks for
it. -/
def eraseNull (invalidClientExists : Bool) (s : Service) : Service :=
  if invalidClientExists then
    { s with mConnections := s.mConnections.filter (·.isSome) }
  else s

/-- Past the last entry. -/
def loopEnds (loop : Loop) (invalidClientExists : Bool) (s : Service) :
    Service :=
  match loop with
  | .keepAlive _ => { eraseNull invalidClientExists s with task := .pinging }
  | .allClients _ _ => { eraseNull invalidClientExists s with task := .idle }

/-- One entry. -/
def visitAt (loop : Loop) (i : Nat) (invalidClientExists : Bool)
    (p : Option Nat) (s : Service) : Service :=
  match loop.visit s.toPacketServer p, loop with
  | .drop, _ => { drop i p s with task := .looping loop (i + 1) true }
  | .send k, .allClients packet ignoredClient =>
      { s with task := .sending packet ignoredClient i invalidClientExists k }
  | _, _ => { s with task := .looping loop (i + 1) invalidClientExists }

/-- One step: the io thread, then the user's. -/
inductive Action
  | accept (approved : Bool) (incoming : List UInt8) (now : TimePoint)
  | io (k : Nat) (a : Connection.Action)
  | popMessage
  | sendAllClients (packet : IPacket) (ignoredClient : Option Nat)
  | sendKeepAlive (now : TimePoint)
  | next
  | send
  | post
  | ping (now : TimePoint)

variable (host : ByteOrder) (ids : PacketIDs)

/-- A handler of a connection, which may push messages and may throw. -/
def handle (k : Nat) (a : Connection.Action) (s : Service) : Option Service :=
  (Connection.step host ids a (s.connection k)).map fun c =>
    let received := c.mMessagesIn.drop (s.connection k).mMessagesIn.length
    { s.setConnection k c with
      mMessageInQueue := s.mMessageInQueue ++ received
      terminated := c.escaped.isSome }

/-- One step, where it is enabled. -/
def event (a : Action) (s : Service) : Option Service :=
  match a with
  | .accept approved incoming now =>
      if s.task.isIdle then some (accept approved incoming now s) else none
  | .io k a =>
      if s.owns k && a.isHandler then handle host ids k a s else none
  | .popMessage =>
      if s.mMessageInQueue ≠ [] then
        some { s with mMessageInQueue := s.mMessageInQueue.tail }
      else none
  | .sendAllClients packet ignoredClient =>
      if s.task.isIdle then
        some { s with
          task := .looping (.allClients packet ignoredClient) 0 false }
      else none
  | .sendKeepAlive now =>
      if s.task.isIdle then
        some { s with
          task := .looping (.keepAlive (now - keepAliveMaxDelay)) 0 false }
      else none
  | .next =>
      match s.task with
      | .looping loop i invalidClientExists =>
          match s.mConnections[i]? with
          | none => some (loopEnds loop invalidClientExists s)
          | some p => some (visitAt loop i invalidClientExists p s)
      | _ => none
  | .send =>
      match s.task with
      | .sending packet ignoredClient i invalidClientExists k =>
          match (Connection.sendBegin host ids packet).run (s.connection k) with
          | .ok _ c => some { s.setConnection k c with
              task := .posting packet ignoredClient i invalidClientExists k }
          -- the exception leaves the loop and the operation
          | .error _ c => some { s.setConnection k c with task := .idle }
      | _ => none
  | .post =>
      match s.task with
      | .posting packet ignoredClient i invalidClientExists k =>
          (Connection.step host ids (.sendEnd 0) (s.connection k)).map fun c =>
            { s.setConnection k c with
              task := .looping (.allClients packet ignoredClient) (i + 1)
                invalidClientExists }
      | _ => none
  | .ping now =>
      match s.task with
      | .pinging =>
          let packet := Ping.toPacket host ids.keepAlive (Ping.create now)
          some { s with task := .looping (.allClients packet none) 0 false }
      | _ => none

/-- One step, as long as the program lives. -/
def step (a : Action) (s : Service) : Option Service :=
  if s.terminated then none else event host ids a s

end Service

end AWEnginePacket
