/-
`PacketServer` in the program that uses it: the same two methods, with
an `OnClientDisconnect` that may change the program's own data and may
call the server back.

# State

`ServerProgram` is the server and the data `user` the callbacks capture.
Everything but the callback works on the server alone; `onServer` runs
such a piece.

# Calls in calls

A callback that calls `Send_AllClients()` is entered again by the loop
of that call. `announcing` is such a callback, over a stack with room
for `depth` further calls; where the room runs out the program is gone.
-/
import AWEnginePacket.Model.Server

namespace AWEnginePacket

open Endian (ByteOrder)

/-- A server and the data of the program around it. -/
structure ServerProgram (σ : Type) where
  server : PacketServer
  user : σ

/-- What the program does to its server and to its own data. -/
abbrev ProgramM (σ : Type) := EStateM Fault (ServerProgram σ)

namespace ServerProgram

variable {σ : Type}

/-- A piece of a method that calls no callback. -/
def onServer {α : Type} (m : ServerM α) : ProgramM σ α := fun s =>
  match m.run s.server with
  | .ok a server => .ok a { s with server }
  | .error e server => .error e { s with server }

variable (host : ByteOrder) (ids : PacketIDs)
  (onClientDisconnect : Option (Option Nat → ProgramM σ PUnit))

/-- A dead connection: tell the user, then `connection.reset()`. -/
def dropAt (i : Nat) (p : Option Nat) : ProgramM σ PUnit := do
  if let some callback := onClientDisconnect then
    callback p
  onServer (modify fun s =>
    { s with mConnections := s.mConnections.set i none })

/-- The loop over `m_Connections`, and whether a visit set
`invalidClientExists`. -/
def forConnections (visit : Nat → ProgramM σ Bool) :
    List Nat → ProgramM σ Bool
  | [] => pure false
  | i :: rest => do
      let invalid ← visit i
      let invalidClientExists ← forConnections visit rest
      pure (invalid || invalidClientExists)

/-- One iteration of `Send_AllClients()`. -/
def sendAt (packet : IPacket) (ignoredClient : Option Nat) (i : Nat) :
    ProgramM σ Bool := do
  let p ← onServer (PacketServer.connectionAt i)
  let s ← get
  match p with
  | some k =>
      if (s.server.connection k).isConnected then
        if some k ≠ ignoredClient then
          onServer (PacketServer.onConnection k
            (Connection.send host ids packet))
        pure false
      else if (s.server.connection k).isConnecting then
        pure false
      else
        dropAt onClientDisconnect i p
        pure true
  | none =>
      dropAt onClientDisconnect i p
      pure true

/-- `Send_AllClients(packet, ignoredClient)`. -/
def sendAllClients (packet : IPacket) (ignoredClient : Option Nat) :
    ProgramM σ PUnit := do
  let s ← get
  let invalidClientExists ← forConnections
    (sendAt host ids onClientDisconnect packet ignoredClient)
    (List.range s.server.mConnections.length)
  onServer (PacketServer.eraseNull invalidClientExists)

/-- One iteration of the first loop of `SendKeepAlive()`. -/
def sweepAt (oldestKeepAlive : TimePoint) (i : Nat) : ProgramM σ Bool := do
  let p ← onServer (PacketServer.connectionAt i)
  let s ← get
  if PacketServer.isDead oldestKeepAlive s.server p then
    dropAt onClientDisconnect i p
    pure true
  else
    pure false

/-- `SendKeepAlive()`; the clock is read at its start, and once more by
the constructor of the ping. -/
def sendKeepAlive (now later : TimePoint) : ProgramM σ PUnit := do
  let oldestKeepAlive := now - keepAliveMaxDelay
  let s ← get
  let invalidClientExists ← forConnections
    (sweepAt onClientDisconnect oldestKeepAlive)
    (List.range s.server.mConnections.length)
  onServer (PacketServer.eraseNull invalidClientExists)
  sendAllClients host ids onClientDisconnect
    (Ping.toPacket host ids.keepAlive (Ping.create later)) none

/-- Another call, and no room for it. -/
def stackOverflow : Fault := .undefined "stack overflow"

/-- An `OnClientDisconnect` that notes which connection it was called
for, and tells everyone else with `Send_AllClients(announcement,
ignored)`; `depth` is how many calls the stack has room for. -/
def announcing (announcement : Option Nat → IPacket)
    (ignored : Option Nat → Option Nat) :
    Nat → Option Nat → ProgramM (List (Option Nat)) PUnit
  | 0, _ => throw stackOverflow
  | depth + 1, p => do
      modify fun s => { s with user := s.user ++ [p] }
      sendAllClients host ids (some (announcing announcement ignored depth))
        (announcement p) (ignored p)

end ServerProgram

end AWEnginePacket
