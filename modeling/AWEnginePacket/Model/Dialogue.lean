/-
A `PacketClient` and the servers that its sessions connect to.

Every `Connect()` that gets as far as making a connection begins a
session. `link k` is the one between the connection of the `k`-th session
and the connection with which a server has accepted it; its client's end
is where that connection is, or was when it was destroyed.

`release()` destroys no connection. One that is left behind so keeps its
socket, and what has been given to that goes on arriving; it keeps its
handlers as well, which run like any other handler of `m_IoContext`,
whenever the client's thread does. What the end of `m_IoContext` does to
a socket left behind is left out.

`popped` is history: what the user has taken from `Incoming()`.
-/
import AWEnginePacket.Model.Client
import AWEnginePacket.Model.Link

namespace AWEnginePacket

open Endian (ByteOrder)

/-- A client, and the link of each of its sessions. -/
structure Dialogue where
  client : PacketClient
  link : Nat → Link
  /-- The sessions whose connections have been left behind. -/
  released : List Nat := []
  popped : List (Nat × OwnedMessage) := []

namespace Dialogue

/-- A client that has been made, and no session yet. -/
def start (gameName : ProtocolGameName) (gameVersion : UInt32) : Dialogue where
  client := PacketClient.create gameName gameVersion
  link _ := Link.start (fun _ => 0) none fun _ => 0

/-- One step: `Connect()`, with the connection and the time at which the
server accepts it; another of the client's; a handler of a connection
that it has left behind; one of the `k`-th session's server; or bytes of
that session arrive. -/
inductive Action
  | connect (env : PacketClient.ConnectEnv) (self : Nat) (now : TimePoint)
  | client (a : PacketClient.Action)
  | released (k : Nat) (a : Connection.Action)
  | server (k : Nat) (a : Connection.Action)
  | arrive (k : Nat) (side : Side) (n : Nat)

/-- Something happens on the link of the `k`-th session. -/
def setLink (d : Dialogue) (k : Nat) (l : Link) : Dialogue :=
  { d with link := Function.update d.link k l }

/-- `Connect()`, which is a step of its own; and the completion of a
connect that failed, as then there is no server. -/
def isApart : PacketClient.Action → Bool
  | .connect _ => true
  | .io a => Link.connectFails a
  | _ => false

/-- The user takes a message, or the client leaves its connection behind. -/
def note (a : PacketClient.Action) (d : Dialogue) : Dialogue :=
  match a with
  | .popFront => { d with
      popped := d.popped ++ d.client.receiveQueue.head?.toList }
  | .disconnectEnd => { d with
      released := d.released ++ (d.client.mConnection.map (·.self)).toList }
  | _ => d

/-- The client has taken a step, and with it the connection it has. -/
def follow (client : PacketClient) (d : Dialogue) : Dialogue :=
  let d := { d with client }
  match client.mConnection with
  | some conn => d.setLink conn.self ((d.link conn.self).setConn .client conn)
  | none => d

/-- A handler of a connection left behind has run: what it received is in
the queue, and an exception that left it ends the program. -/
def stir (k : Nat) (l : Link) (d : Dialogue) : Dialogue :=
  let client :=
    d.client.stepped ((d.link k).conn .client) (l.conn .client)
  { d.setLink k l with
    client := { client with mConnection := d.client.mConnection } }

/-- Bytes have arrived at the connection of a session, which the client
may still have. -/
def hear (k : Nat) (l : Link) (d : Dialogue) : Dialogue :=
  let conn := d.client.mConnection.map fun conn =>
    if conn.self = k then l.conn .client else conn
  { d.setLink k l with client := { d.client with mConnection := conn } }

variable (host : Side → ByteOrder) (ids : Side → PacketIDs)
  (disconnectID : UInt8)

/-- The link of a session that begins. -/
def opened (k : Nat) (packet : IPacket) (env : PacketClient.ConnectEnv)
    (self : Nat) (now : TimePoint) : Link :=
  Link.start (fun
    | .server => self
    | .client => k) (some packet) fun
    | .server => now
    | .client => env.now

/-- `Connect()` has returned. If it has made a connection, there is a
server for it. -/
def connected (env : PacketClient.ConnectEnv) (self : Nat) (now : TimePoint)
    (client : PacketClient) (d : Dialogue) : Dialogue :=
  let k := d.client.sessions
  let packet :=
    PacketClient.initPacket (host .client) (ids .client) env d.client
  let d' := { d with client }
  if client.sessions = k then d'
  else d'.setLink k (opened k packet env self now)

/-- One step, where it is enabled. -/
def step (a : Action) (d : Dialogue) : Option Dialogue :=
  match a with
  | .connect env self now =>
      -- what the server sends comes by `arrive`
      if env.incoming.isEmpty then
        (PacketClient.step (host .client) (ids .client) disconnectID
          (.connect env) d.client).map fun client =>
            d.connected host ids env self now client
      else none
  | .client a =>
      if isApart a then none
      else (PacketClient.step (host .client) (ids .client) disconnectID a
        d.client).map fun client => (note a d).follow client
  | .released k a =>
      if k ∈ d.released ∧ a.isHandler = true ∧ d.client.fate = none
          ∧ d.client.runs = true then
        (Link.step host ids (.event .client a) (d.link k)).map
          fun l => d.stir k l
      else none
  | .server k a =>
      if k < d.client.sessions then
        (Link.step host ids (.event .server a) (d.link k)).map (d.setLink k)
      else none
  | .arrive k side n =>
      if k < d.client.sessions then
        (Link.step host ids (.arrive side n) (d.link k)).map
          fun l => d.hear k l
      else none

end Dialogue

end AWEnginePacket
