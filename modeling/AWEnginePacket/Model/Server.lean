/-
`PacketServer`: its container of connections, and the two methods that
walk it.

# State

`mConnections` is the deque of `shared_ptr`s, a null pointer being
`none`; `connection` is the objects behind them. `OnClientDisconnect`
is a `std::function` the user may leave empty, so a parameter here.

# Loops

A range-based `for` fixes its end before the first iteration, and a
dead connection is reset in place and erased after the loop. The loop
below visits the positions the container had at its start; a position
that a callback has erased meanwhile is an invalidated iterator.
-/
import AWEnginePacket.Model.Connection
import Mathlib.Logic.Function.Basic

namespace AWEnginePacket

open Endian (ByteOrder)

/-- `KeepAliveMaxDelay`, 45 seconds. -/
def keepAliveMaxDelay : Int := 45000000000

/-- `PacketServer`. -/
structure PacketServer where
  mConnections : List (Option Nat)
  connection : Nat → Connection

/-- Methods of a server: they may throw, and keep what they did. -/
abbrev ServerM := EStateM Fault PacketServer

namespace PacketServer

variable (host : ByteOrder) (ids : PacketIDs)
  (onClientDisconnect : Option (Option Nat → ServerM PUnit))

/-- A method of the `k`-th connection, called by the server. -/
def onConnection (k : Nat) (m : ConnM PUnit) : ServerM PUnit := fun s =>
  match m.run (s.connection k) with
  | .ok _ c => .ok ⟨⟩ { s with connection := Function.update s.connection k c }
  | .error e c =>
      .error e { s with connection := Function.update s.connection k c }

/-- `*it` in a loop over `m_Connections`. -/
def connectionAt (i : Nat) : ServerM (Option Nat) := do
  match (← get).mConnections[i]? with
  | none => throw (.undefined "invalidated iterator of a deque")
  | some p => pure p

/-- A dead connection: tell the user, then `connection.reset()`. -/
def dropAt (i : Nat) (p : Option Nat) : ServerM PUnit := do
  if let some callback := onClientDisconnect then
    callback p
  modify fun s => { s with mConnections := s.mConnections.set i none }

/-- The loop over `m_Connections`, and whether a visit set
`invalidClientExists`. -/
def forConnections (visit : Nat → ServerM Bool) : List Nat → ServerM Bool
  | [] => pure false
  | i :: rest => do
      let invalid ← visit i
      let invalidClientExists ← forConnections visit rest
      pure (invalid || invalidClientExists)

/-- `erase(remove(begin, end, nullptr), end)`, where a flag asks for
it. -/
def eraseNull (invalidClientExists : Bool) : ServerM PUnit := do
  if invalidClientExists then
    modify fun s => { s with mConnections := s.mConnections.filter (·.isSome) }

/-- One iteration of `Send_AllClients()`. -/
def sendAt (packet : IPacket) (ignoredClient : Option Nat) (i : Nat) :
    ServerM Bool := do
  let p ← connectionAt i
  let s ← get
  match p with
  | some k =>
      if (s.connection k).isConnected then
        if some k ≠ ignoredClient then
          onConnection k (Connection.send host ids packet)
        pure false
      else if (s.connection k).isConnecting then
        pure false
      else
        dropAt onClientDisconnect i p
        pure true
  | none =>
      dropAt onClientDisconnect i p
      pure true

/-- `Send_AllClients(packet, ignoredClient)`. -/
def sendAllClients (packet : IPacket) (ignoredClient : Option Nat) :
    ServerM PUnit := do
  let s ← get
  let invalidClientExists ← forConnections
    (sendAt host ids onClientDisconnect packet ignoredClient)
    (List.range s.mConnections.length)
  eraseNull invalidClientExists

/-- The test of `SendKeepAlive()`. -/
def isDead (oldestKeepAlive : TimePoint) (s : PacketServer) :
    Option Nat → Bool
  | none => true
  | some k =>
      let connection := s.connection k
      (!connection.isConnected && !connection.isConnecting)
        || decide (connection.mLastKeepAlive < oldestKeepAlive)

/-- One iteration of the first loop of `SendKeepAlive()`. -/
def sweepAt (oldestKeepAlive : TimePoint) (i : Nat) : ServerM Bool := do
  let p ← connectionAt i
  if isDead oldestKeepAlive (← get) p then
    dropAt onClientDisconnect i p
    pure true
  else
    pure false

/-- `SendKeepAlive()`; the clock is read at its start, and once more by
the constructor of the ping. -/
def sendKeepAlive (now later : TimePoint) : ServerM PUnit := do
  let oldestKeepAlive := now - keepAliveMaxDelay
  let s ← get
  let invalidClientExists ← forConnections
    (sweepAt onClientDisconnect oldestKeepAlive)
    (List.range s.mConnections.length)
  eraseNull invalidClientExists
  sendAllClients host ids onClientDisconnect
    (Ping.toPacket host ids.keepAlive (Ping.create later)) none

end PacketServer

end AWEnginePacket
