/-
`Connection`: one end of a socket, its outgoing queue, its read and
write handlers, and the io thread that runs them.

# State

The `m…` fields are the class's members. Below them stands what the
class reaches through `m_Socket` and `m_IoContext`: whether the socket
is open, the asynchronous operations outstanding on it, the handlers
posted and not yet run, the bytes the peer has sent that no read has
taken (`incoming`), and the bytes given to `async_write` so far, in
order (`handed`). `mMessagesIn` is this connection's share of the
queue it pushes into. `hist` is a history variable: no method reads
it. `escaped` is the exception that left a completion handler, after
which the io thread is gone.

# Steps

`step` is one event: a call of a user's thread, or one handler on the
io thread. Posted handlers run in the order they were posted. A `Send`
call tests `IsConnected()` before it posts, and the io thread may run
in between, so besides the whole call (`send`) there are its two
halves (`sendBegin`, `sendEnd`). A completion reports success or an
error at the environment's choice: an operation that had already
finished when the socket was closed still reports success, so success
is not tied to `isOpen`. A successful read needs the bytes it asked
for to have arrived.

`m_ClientState` is left out: no method reads or writes it.
-/
import AWEnginePacket.Lib.Effect
import AWEnginePacket.Model.Packets

namespace AWEnginePacket

open Endian (ByteOrder)

-- ================================================================ state

/-- `PacketSendInfo`. -/
structure PacketSendInfo where
  header : PacketHeader := {}
  body : PacketBuffer := {}
deriving DecidableEq, Repr

/-- `OwnedMessage_t`: the owning connection, for messages received by a
server, and the message. -/
structure OwnedMessage where
  first : Option Nat
  second : PacketSendInfo
deriving DecidableEq, Repr

/-- A `Send` call past its check: the packet, and the message made of
it. -/
structure SendCall where
  packet : IPacket
  info : PacketSendInfo

/-- A handler given to `asio::post`, by `Send` and by `Disconnect`. -/
inductive Handler
  | queueMessage (info : PacketSendInfo)
  | close
deriving DecidableEq, Repr

/-- An outstanding `async_write`. -/
inductive WriteOp
  | header
  | body
deriving DecidableEq, Repr

/-- An outstanding `async_read`; a body read has fixed its length. -/
inductive ReadOp
  | header
  | body (length : Nat)
deriving DecidableEq, Repr

/-- Which handler the io thread was running. -/
inductive HandlerKind
  | connect
  | posted
  | read
  | write
deriving DecidableEq, Repr

/-- What the history variable records: a posted message, a ping payload
`Send` remembered, and the two verdicts on a received KeepAlive. -/
inductive Obs
  | posted (call : SendCall)
  | pinged (payload : UInt64)
  | refreshed (payload : UInt64) (now : TimePoint)
  | dropped (payload : UInt64)

/-- A `Connection` and the io objects behind it. -/
structure Connection where
  /-- The object behind `shared_from_this()`. -/
  self : Nat := 0
  mDirection : PacketDirection
  mIsConnecting : Bool := false
  mInitPacket : Option IPacket := none
  mLastKeepAliveValue : UInt64 := 0
  mLastKeepAlive : TimePoint
  mLastReceivedMessageTime : TimePoint
  mLastSentMessageTime : TimePoint
  mMessagesOut : List PacketSendInfo := []
  mMessagesIn : List OwnedMessage := []
  mWipInMessage : PacketSendInfo := {}
  mReceivedPacketCount : Nat := 0
  mSentPacketCount : Nat := 0
  isOpen : Bool
  connecting : Bool := false
  reads : List ReadOp := []
  writes : List WriteOp := []
  posted : List Handler := []
  calls : List SendCall := []
  incoming : List UInt8 := []
  handed : List UInt8 := []
  escaped : Option (HandlerKind × Fault) := none
  hist : List Obs := []

/-- Methods of a connection: they may throw, and keep what they did. -/
abbrev ConnM := EStateM Fault Connection

namespace Connection

/-- The constructor, over a socket that is open or not; `incoming` is
what the peer will have sent. -/
def create (self : Nat) (direction : PacketDirection) (isOpen : Bool)
    (incoming : List UInt8) (now : TimePoint) : Connection :=
  { self, mDirection := direction, isOpen, incoming, mLastKeepAlive := now
    mLastReceivedMessageTime := now, mLastSentMessageTime := now }

/-- `IsConnecting()`. -/
def isConnecting (c : Connection) : Bool := c.mIsConnecting

/-- `IsConnected()`. -/
def isConnected (c : Connection) : Bool := c.isOpen && !c.mIsConnecting

/-- An asynchronous operation or a posted handler is outstanding. -/
def hasPending (c : Connection) : Bool :=
  c.connecting || !c.reads.isEmpty || !c.writes.isEmpty || !c.posted.isEmpty

-- =========================================================== primitives

/-- `m_Socket.close()`; operations outstanding on it still complete. -/
def close : ConnM PUnit := modify fun c => { c with isOpen := false }

/-- `asio::async_write` of some bytes. -/
def asyncWrite (op : WriteOp) (bytes : List UInt8) : ConnM PUnit :=
  modify fun c =>
    { c with writes := c.writes ++ [op], handed := c.handed ++ bytes }

/-- `asio::async_read`. -/
def asyncRead (op : ReadOp) : ConnM PUnit :=
  modify fun c => { c with reads := c.reads ++ [op] }

/-- Append to the history variable. -/
def record (o : Obs) : ConnM PUnit :=
  modify fun c => { c with hist := c.hist ++ [o] }

/-- `m_MessagesOut.peek_front()`. -/
def peekFront : ConnM PacketSendInfo := do
  match (← get).mMessagesOut with
  | [] => throw (.undefined "front() of an empty deque")
  | m :: _ => pure m

/-- `m_MessagesOut.pop_front()`. -/
def popFront : ConnM PUnit := do
  match (← get).mMessagesOut with
  | [] => throw (.undefined "pop_front() of an empty deque")
  | _ :: rest => modify fun c => { c with mMessagesOut := rest }

variable (host : ByteOrder) (ids : PacketIDs)

-- ============================================================== writing

/-- `WriteHeader()`. -/
def writeHeader : ConnM PUnit := do
  if !(← get).isConnected then
    throw (.runtimeError "Not Connected - WriteHeader()")
  let front ← peekFront
  asyncWrite .header (front.header.toMemory host)

/-- `WriteBody()`. -/
def writeBody : ConnM PUnit := do
  let front ← peekFront
  asyncWrite .body front.body.bytes

/-- The end of a message, in both write completions: drop it from the
queue, count it, start on the next one. -/
def messageWritten (now : TimePoint) : ConnM PUnit := do
  popFront
  modify fun c => { c with mLastSentMessageTime := now
                           mSentPacketCount := c.mSentPacketCount + 1 }
  if !(← get).mMessagesOut.isEmpty then
    writeHeader host

/-- Completion handler of `WriteHeader()`. -/
def headerWritten (ok : Bool) (now : TimePoint) : ConnM PUnit := do
  if ok then
    let front ← peekFront
    if !front.body.empty then
      writeBody
    else
      messageWritten host now
  else
    close

/-- Completion handler of `WriteBody()`. -/
def bodyWritten (ok : Bool) (now : TimePoint) : ConnM PUnit := do
  if ok then
    messageWritten host now
  else
    close

-- ============================================================== sending

/-- `Send(packet)` up to its `asio::post`: test, write the body, fill in
the header, remember the payload of a ping. -/
def prepare (packet : IPacket) : ConnM SendCall := do
  let c ← get
  if !c.isConnected then
    throw (.runtimeError "Not Connected - Send(packet)")
  match packet.write.run {} with
  | .error e _ => throw e
  | .ok _ body =>
      let info : PacketSendInfo :=
        { header := { id := packet.id
                      size := htobe16 host body.size.toUInt16 }
          body }
      if c.mDirection = .toClient then
        if info.header.id = ids.keepAlive then
          if info.header.flags = PacketFlags.none
              ∧ info.header.size.toNat ≥ 8 then
            let payload := loadUInt64 host (info.body.bytesFrom 8)
            modify fun c => { c with mLastKeepAliveValue := payload }
            record (.pinged payload)
      pure ⟨packet, info⟩

/-- The `asio::post` at the end of `Send(packet)`. -/
def post (call : SendCall) : ConnM PUnit :=
  modify fun c => { c with posted := c.posted ++ [.queueMessage call.info]
                           hist := c.hist ++ [.posted call] }

/-- `Send(packet)`. -/
def send (packet : IPacket) : ConnM PUnit := do
  let call ← prepare host ids packet
  post call

/-- `Send(packet)` up to its `asio::post`, the call kept for later. -/
def sendBegin (packet : IPacket) : ConnM PUnit := do
  let call ← prepare host ids packet
  modify fun c => { c with calls := c.calls ++ [call] }

/-- The handler `Send(packet)` posts. -/
def queueMessage (info : PacketSendInfo) : ConnM PUnit := do
  let bWritingMessage := !(← get).mMessagesOut.isEmpty
  modify fun c => { c with mMessagesOut := c.mMessagesOut ++ [info] }
  if !bWritingMessage then
    writeHeader host

/-- `Disconnect()`. -/
def disconnect : ConnM PUnit := do
  if (← get).isConnected then
    modify fun c => { c with posted := c.posted ++ [.close] }

/-- What a posted handler does. -/
def runPosted : Handler → ConnM PUnit
  | .queueMessage info => queueMessage host info
  | .close => close

-- ============================================================== reading

/-- `ReadHeader()`. -/
def readHeader : ConnM PUnit := asyncRead .header

/-- `ReadBody()`. -/
def readBody : ConnM PUnit := do
  modify fun c =>
    let body := c.mWipInMessage.body.resize c.mWipInMessage.header.size.toNat
    { c with mWipInMessage.body := body }
  let c ← get
  asyncRead (.body c.mWipInMessage.body.size.toNat)

/-- The KeepAlive branch of `AddToIncomingMessageQueue()`. -/
def keepAliveReceived (msg : PacketSendInfo) (now : TimePoint) :
    ConnM PUnit := do
  if msg.header.flags ≠ PacketFlags.none then
    throw (.runtimeError "KeepAlive packet cannot have any flags")
  if msg.header.size ≠ 8 then
    throw (.runtimeError "KeepAlive packet has invalid size")
  let payload := loadUInt64 host (msg.body.bytesFrom 8)
  if (← get).mDirection = .toServer then
    modify fun c => { c with mLastKeepAlive := now }
    send host ids (Ping.toPacket host ids.keepAlive ⟨payload⟩)
  if (← get).mDirection = .toClient then
    if payload = (← get).mLastKeepAliveValue then
      modify fun c => { c with mLastKeepAlive := now }
      record (.refreshed payload now)
    else
      modify fun c => { c with mLastKeepAlive := 0 }
      record (.dropped payload)

/-- The Init branch of `AddToIncomingMessageQueue()` on a server's
connection. Both known steps `return` from the method. -/
def initReceived (msg : PacketSendInfo) : ConnM PUnit := do
  if msg.header.flags ≠ PacketFlags.none then
    throw (.runtimeError "Init packet cannot have any flags")
  if msg.header.size ≠ 17 then
    throw (.runtimeError "Init packet has invalid size")
  match (Init.parse host).run msg.body with
  | .error e _ => throw e
  | .ok initPacket _ =>
      if initPacket.next ≠ NextInitStep.serverInfo
          ∧ initPacket.next ≠ NextInitStep.join then
        throw (.runtimeError "Unknown Init packet next stage")

/-- `AddToIncomingMessageQueue()`. -/
def addToIncomingMessageQueue (now : TimePoint) : ConnM PUnit := do
  let c ← get
  let msg : OwnedMessage :=
    ⟨if c.mDirection = .toClient then some c.self else none, c.mWipInMessage⟩
  modify fun c => { c with mLastReceivedMessageTime := now
                           mReceivedPacketCount := c.mReceivedPacketCount + 1 }
  if msg.second.header.id = ids.keepAlive then
    keepAliveReceived host ids msg.second now
  if msg.second.header.id = ids.init ∧ c.mDirection = .toClient then
    -- neither the push nor ReadHeader() below is reached
    initReceived host msg.second
  else
    modify fun c => { c with mMessagesIn := c.mMessagesIn ++ [msg] }
    readHeader

/-- Completion handler of `ReadHeader()`. -/
def headerRead (ok : Bool) (now : TimePoint) : ConnM PUnit := do
  modify fun c =>
    let size := be16toh host c.mWipInMessage.header.size
    { c with mWipInMessage.header.size := size }
  if ok then
    if (← get).mWipInMessage.header.size = 0 then
      addToIncomingMessageQueue host ids now
    else
      readBody
  else
    close

/-- Completion handler of `ReadBody()`. -/
def bodyRead (ok : Bool) (now : TimePoint) : ConnM PUnit := do
  if ok then
    if PacketFlags.test (← get).mWipInMessage.header.flags
        PacketFlags.compressed then
      close
    else
      addToIncomingMessageQueue host ids now
  else
    close

-- =========================================================== connecting

/-- `ConnectToClient()`. -/
def connectToClient : ConnM PUnit := do
  if (← get).mDirection = .toServer then
    throw (.runtimeError "Incorrect direction - Cannot connect to client from connection pointed towards server")
  if (← get).isOpen then
    readHeader

/-- `ConnectToServer(endpoints, initPacket)`. -/
def connectToServer (initPacket : Option IPacket) : ConnM PUnit := do
  if (← get).mDirection = .toClient then
    throw (.runtimeError "Incorrect direction - Cannot connect to server from connection pointed towards client")
  modify fun c => { c with mIsConnecting := true, mInitPacket := initPacket }
  modify fun c => { c with connecting := true }

/-- Completion handler of the `async_connect` in `ConnectToServer()`. -/
def connectCompleted (ok : Bool) : ConnM PUnit := do
  modify fun c => { c with mIsConnecting := false }
  if ok then
    if let some packet := (← get).mInitPacket then
      send host ids packet
    readHeader

-- ================================================================ steps

/-- One event of a connection's life. -/
inductive Action
  | send (packet : IPacket)
  | sendBegin (packet : IPacket)
  | sendEnd (i : Nat)
  | disconnect
  | posted
  | writeDone (op : WriteOp) (ok : Bool) (now : TimePoint)
  | readDone (op : ReadOp) (ok : Bool) (now : TimePoint)
  | connectDone (ok : Bool) (leftOpen : Bool)

/-- The events that happen on the io thread. -/
def Action.isHandler : Action → Bool
  | .posted => true
  | .writeDone .. => true
  | .readDone .. => true
  | .connectDone .. => true
  | _ => false

/-- Run a handler on the io thread; nothing there catches what it
throws. -/
def runHandler (kind : HandlerKind) (m : ConnM PUnit) (c : Connection) :
    Connection :=
  match m.run c with
  | .ok _ c' => c'
  | .error e c' => { c' with escaped := some (kind, e) }

/-- The completion handler of a write. -/
def writeCompleted (op : WriteOp) (ok : Bool) (now : TimePoint) :
    ConnM PUnit :=
  match op with
  | .header => headerWritten host ok now
  | .body => bodyWritten host ok now

/-- The completion handler of a read. -/
def readCompleted (op : ReadOp) (ok : Bool) (now : TimePoint) :
    ConnM PUnit :=
  match op with
  | .header => headerRead host ids ok now
  | .body _ => bodyRead host ids ok now

/-- What `async_read` does before a successful completion: the bytes it
asked for move from the stream into the message being received. Not
enabled before they have all arrived. -/
def transfer (op : ReadOp) (c : Connection) : Option Connection :=
  match op with
  | .header =>
      if c.incoming.length < PacketHeader.sizeOf then none
      else
        let header := PacketHeader.ofMemory host
          (c.incoming.take PacketHeader.sizeOf)
        some { c with incoming := c.incoming.drop PacketHeader.sizeOf
                      mWipInMessage.header := header }
  | .body n =>
      if c.incoming.length < n then none
      else
        let body := c.mWipInMessage.body.store (c.incoming.take n)
        some { c with incoming := c.incoming.drop n
                      mWipInMessage.body := body }

/-- One event, where it is enabled. A `Send` that throws leaves the
connection as it was and is no event. -/
def event (a : Action) (c : Connection) : Option Connection :=
  match a with
  | .send packet =>
      match (send host ids packet).run c with
      | .ok _ c' => some c'
      | .error _ _ => none
  | .sendBegin packet =>
      match (prepare host ids packet).run c with
      | .ok call c' => some { c' with calls := c'.calls ++ [call] }
      | .error _ _ => none
  | .sendEnd i =>
      match c.calls[i]? with
      | some call =>
          some (Effect.after (post call) { c with calls := c.calls.eraseIdx i })
      | none => none
  | .disconnect => some (Effect.after disconnect c)
  | .posted =>
      match c.posted with
      | [] => none
      | h :: rest =>
          some (runHandler .posted (runPosted host h) { c with posted := rest })
  | .writeDone op ok now =>
      if op ∈ c.writes then
        some (runHandler .write (writeCompleted host op ok now)
          { c with writes := c.writes.erase op })
      else none
  | .readDone op ok now =>
      if op ∈ c.reads then
        if ok then
          (transfer host op { c with reads := c.reads.erase op }).map
            (runHandler .read (readCompleted host ids op true now))
        else some (runHandler .read (readCompleted host ids op false now)
          { c with reads := c.reads.erase op })
      else none
  | .connectDone ok leftOpen =>
      if c.connecting then
        some (runHandler .connect (connectCompleted host ids ok)
          { c with connecting := false, isOpen := ok || leftOpen })
      else none

/-- One event, as long as no exception has left a handler. -/
def step (a : Action) (c : Connection) : Option Connection :=
  if c.escaped.isSome then none else event host ids a c

end Connection

end AWEnginePacket
