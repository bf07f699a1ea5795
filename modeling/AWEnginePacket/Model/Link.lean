/-
The two ends of one connection, and the bytes between them.

# State

`conn` is the server's `Connection` and the client's. What one end has
given to `async_write` (`handed`) arrives at the other in order, at any
time later and in pieces of any length; `arrived` is how many of the
peer's bytes have. The ends share nothing else: they belong to two
programs, so byte order, packet IDs and clock are each end's own.

# Steps

An event of one end, or the arrival of some bytes. The server's end is
there because its accept succeeded, so a connect that fails is not an
event of a link.
-/
import AWEnginePacket.Model.Connection
import Mathlib.Logic.Function.Basic

namespace AWEnginePacket

open Endian (ByteOrder)

/-- An end of a link. -/
inductive Side
  | server
  | client
deriving DecidableEq, Repr

/-- The other end. -/
def Side.peer : Side → Side
  | .server => .client
  | .client => .server

/-- Two connections and how many of the peer's bytes have arrived. -/
structure Link where
  conn : Side → Connection
  arrived : Side → Nat

namespace Link

/-- A link whose server has accepted the client and called
`ConnectToClient()`, and whose client has called
`ConnectToServer(endpoints, initPacket)`. -/
def start (self : Side → Nat) (initPacket : Option IPacket)
    (now : Side → TimePoint) : Link where
  conn
    | .server => Effect.after Connection.connectToClient
        (Connection.create (self .server) .toClient true [] (now .server))
    | .client => Effect.after (Connection.connectToServer initPacket)
        (Connection.create (self .client) .toServer false [] (now .client))
  arrived _ := 0

/-- An event of one end, or the arrival of `n` bytes at it. -/
inductive Action
  | event (side : Side) (a : Connection.Action)
  | arrive (side : Side) (n : Nat)

/-- The completion of a connect that failed. -/
def connectFails : Connection.Action → Bool
  | .connectDone ok _ => !ok
  | _ => false

/-- One end changes. -/
def setConn (l : Link) (side : Side) (c : Connection) : Link :=
  { l with conn := Function.update l.conn side c }

/-- The bytes on their way to an end. -/
def inTransit (l : Link) (side : Side) : List UInt8 :=
  (l.conn side.peer).handed.drop (l.arrived side)

/-- The next `n` of them arrive. -/
def arrive (side : Side) (n : Nat) (l : Link) : Link :=
  let c := l.conn side
  { l.setConn side
      { c with incoming := c.incoming ++ (l.inTransit side).take n } with
    arrived := Function.update l.arrived side (l.arrived side + n) }

variable (host : Side → ByteOrder) (ids : Side → PacketIDs)

/-- One step, where it is enabled. -/
def step (a : Action) (l : Link) : Option Link :=
  match a with
  | .event side a =>
      if connectFails a then none
      else (Connection.step (host side) (ids side) a (l.conn side)).map
        (l.setConn side)
  | .arrive side n =>
      if n ≤ (l.inTransit side).length then some (l.arrive side n) else none

end Link

end AWEnginePacket
