/-
A server and all its clients.

`service` is the server's program. The client of its `k`-th connection is
`peer k`, a `Connection` of another program with a byte order and packet
IDs of its own, and between the two is a link as in `Link`: `arrived k`
is how many of the peer's bytes have arrived at each end.

Three fields are history, which nothing reads: the messages that
`Update()` has taken from the queue, what the server's program has had
sent and to whom, and how much of that had been said when each connection
was accepted.

The server's program sends with `Send_AllClients()`, `SendKeepAlive()`
and, to one client, with the `Send` of a connection that it holds.
-/
import AWEnginePacket.Model.Link
import AWEnginePacket.Model.Service

namespace AWEnginePacket

open Endian (ByteOrder)

namespace Network

/-- Something the server's program has had sent. -/
inductive Said
  | allClients (packet : IPacket) (ignoredClient : Option Nat)
  | client (k : Nat) (packet : IPacket)

end Network

open Network

/-- A server, its clients, and what has arrived where. -/
structure Network where
  service : Service
  peer : Nat → Connection
  arrived : Nat → Side → Nat
  popped : List OwnedMessage := []
  said : List Said := []
  joined : Nat → Nat := fun _ => 0

namespace Network

/-- A server that has started, and nobody there. -/
def start : Network :=
  { service := Service.start
    peer := fun _ => Connection.create 0 .toServer false [] 0
    arrived := fun _ _ => 0 }

/-- The two ends of a connection, and what has arrived. -/
def link (n : Network) (k : Nat) : Link where
  conn
    | .server => n.service.connection k
    | .client => n.peer k
  arrived := n.arrived k

/-- Something happens on one link. -/
def setLink (n : Network) (k : Nat) (l : Link) : Network :=
  { n with
    service := n.service.setConnection k (l.conn .server)
    peer := Function.update n.peer k (l.conn .client)
    arrived := Function.update n.arrived k l.arrived }

/-- `service` is the server once it has accepted a client: the client has
called `ConnectToServer(endpoints, initPacket)`. -/
def welcome (n : Network) (service : Service) (initPacket : Option IPacket)
    (now : TimePoint) : Network :=
  let k := n.service.created
  { n with
    service
    peer := Function.update n.peer k
      (Effect.after (Connection.connectToServer initPacket)
        (Connection.create 0 .toServer false [] now))
    arrived := Function.update n.arrived k fun _ => 0
    joined := Function.update n.joined k n.said.length }

/-- What is one's own and what is the client's. -/
def sides {α : Type} (mine : α) (theirs : Nat → α) (k : Nat) : Side → α
  | .server => mine
  | .client => theirs k

/-- One step: a client connects; the server's program or io thread; a
`Send` to one client; an event at a client's; bytes arrive. -/
inductive Action
  | connect (approved : Bool) (initPacket : Option IPacket)
      (now : Side → TimePoint)
  | server (a : Service.Action)
  | send (k : Nat) (packet : IPacket)
  | client (k : Nat) (a : Connection.Action)
  | arrive (k : Nat) (side : Side) (n : Nat)

variable (host : ByteOrder) (ids : PacketIDs) (clientHost : Nat → ByteOrder)
  (clientIds : Nat → PacketIDs)

/-- A step of the link of a connection that has been made. -/
def linkStep (k : Nat) (a : Link.Action) (n : Network) : Option Network :=
  if k < n.service.created then
    (Link.step (sides host clientHost k) (sides ids clientIds k) a
      (n.link k)).map (n.setLink k)
  else none

/-- The step with which the server accepts a client. -/
def accepts : Service.Action → Bool
  | .accept _ _ _ => true
  | _ => false

/-- What a step of the server adds to the history. -/
def note (a : Service.Action) (n : Network) : Network :=
  match a with
  | .popMessage => { n with
      popped := n.popped ++ n.service.mMessageInQueue.head?.toList }
  | .sendAllClients packet ignoredClient => { n with
      said := n.said ++ [.allClients packet ignoredClient] }
  | .ping now =>
      let packet := Ping.toPacket host ids.keepAlive (Ping.create now)
      { n with said := n.said ++ [.allClients packet none] }
  | _ => n

/-- One step, where it is enabled. -/
def step (a : Action) (n : Network) : Option Network :=
  match a with
  | .connect approved initPacket now =>
      (Service.step host ids (.accept approved [] (now .server))
        n.service).map fun service => n.welcome service initPacket (now .client)
  | .server a =>
      -- clients come by `connect`
      if accepts a then none
      else (Service.step host ids a n.service).map fun service =>
        { note host ids a n with service }
  | .send k packet =>
      if n.service.task.isIdle && n.service.owns k
          && !n.service.terminated then
        (linkStep host ids clientHost clientIds k
            (.event .server (.send packet)) n).map fun n' =>
          { n' with said := n.said ++ [.client k packet] }
      else none
  | .client k a =>
      linkStep host ids clientHost clientIds k (.event .client a) n
  | .arrive k side m =>
      linkStep host ids clientHost clientIds k (.arrive side m) n

end Network

end AWEnginePacket
