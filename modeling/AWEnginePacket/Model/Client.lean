/-
`PacketClient`: one connection at a time, its `io_context`, and the
thread that runs it.

# State

`mThreadContext` is the handle: joinable from the moment a thread is
assigned to it until it is joined, whether the thread still runs or has
returned. `mIoContextStopped` is the stopped state of `m_IoContext`: set
by `stop()` and by a `run()` that is out of work, cleared by nothing but
`restart()`, which the code never calls. `receiveQueue` is
`ReceiveQueue`, each message with the session that received it. `user`
is where the user's thread is, `fate` how the client or the whole
program ended.

# Steps

The io thread runs between any two steps of the user's thread, so
`Disconnect()` is four of them: its test, the two halves of its `Send`,
and what follows the delay. Handlers run only while the thread runs and
the context is not stopped. `Connect()` is one step: the thread it
starts is started last. A `Send` needs a connection; calling it without
one is no step.

`asio` destroys no handler of a connection that is destroyed: they run
later, with an error code and a dangling `this`.
-/
import AWEnginePacket.Model.Connection

namespace AWEnginePacket

open Endian (ByteOrder)

/-- `PacketClientStatus`. -/
inductive PacketClientStatus
  | disconnected
  | connecting
  | connected
deriving DecidableEq, Repr

/-- `PacketClientDisconnectReason`. -/
inductive PacketClientDisconnectReason
  | unknown
  | clientRequest
  | kicked
  | connectionError
deriving DecidableEq, Repr

/-- `PacketClientDisconnectInfo`. -/
structure PacketClientDisconnectInfo where
  reason : PacketClientDisconnectReason := .unknown
  translateMessage : Bool := false
  message : String := ""
deriving DecidableEq, Repr

namespace PacketClient

/-- A `std::thread`. -/
inductive ThreadHandle
  | none
  | running
  | returned
deriving DecidableEq, Repr

/-- `joinable()`. -/
def ThreadHandle.joinable : ThreadHandle → Bool
  | .none => false
  | .running => true
  | .returned => true

/-- The callers of the one body `Disconnect()` and
`DisconnectWithError()` share. -/
inductive DisconnectCall
  | disconnect
  | disconnectWithError
  | destructor
deriving DecidableEq, Repr

/-- The text each of them leaves; the destructor calls `Disconnect()`. -/
def DisconnectCall.message : DisconnectCall → String
  | .disconnect => "Disconnect requested by user"
  | .disconnectWithError => "Requested disconnect with error"
  | .destructor => "Disconnect requested by user"

/-- Where the user's thread is. -/
inductive User
  /-- Outside of the three methods. -/
  | idle
  /-- `IsConnected()` was true, and `Send` comes next. -/
  | sending (call : DisconnectCall)
  /-- In `Send`, past its test, called from there or by the user. -/
  | posting (call : Option DisconnectCall)
  /-- In the delay after `Send`. -/
  | waiting (call : DisconnectCall)
deriving DecidableEq, Repr

/-- How it ended. -/
inductive Fate
  /-- The destructor ran to its end. -/
  | destroyed
  /-- `std::terminate()`: a thread assigned to a joinable handle. -/
  | joinableAssigned
  /-- `std::terminate()`: a joinable handle destroyed. -/
  | joinableDestroyed
  /-- `std::terminate()`: an exception left the destructor. -/
  | destructorThrew
  /-- `std::terminate()`: an exception left a handler. -/
  | handlerThrew
  /-- A handler of a destroyed connection ran. -/
  | danglingHandler
deriving DecidableEq, Repr

/-- How a method ends other than by returning. -/
inductive Exit
  | thrown (e : Fault)
  | terminated (fate : Fate)
deriving DecidableEq, Repr

end PacketClient

open PacketClient

/-- A `PacketClient` and the two threads that use it. -/
structure PacketClient where
  mLastDisconnectInfo : PacketClientDisconnectInfo := {}
  mCurrentStatus : PacketClientStatus := .disconnected
  mIoContextStopped : Bool := false
  mThreadContext : ThreadHandle := .none
  mConnection : Option Connection := none
  mGameName : ProtocolGameName
  mGameVersion : UInt32
  receiveQueue : List (Nat × OwnedMessage) := []
  /-- Connections made so far. -/
  sessions : Nat := 0
  /-- A destroyed connection has left handlers behind. -/
  dangling : Bool := false
  user : User := .idle
  fate : Option Fate := none

/-- Methods of a client: they may throw, and keep what they did. -/
abbrev ClientM := EStateM Exit PacketClient

namespace PacketClient

/-- The constructor. -/
def create (gameName : ProtocolGameName) (gameVersion : UInt32) :
    PacketClient :=
  { mGameName := gameName, mGameVersion := gameVersion }

/-- `IsConnected()`. -/
def isConnected (c : PacketClient) : Bool :=
  c.mConnection.any (·.isConnected)

/-- `IsConnecting()`. -/
def isConnecting (c : PacketClient) : Bool :=
  c.mConnection.any (·.isConnecting)

/-- What a call of `Connect()` meets: whether the name resolves and to
anything, the locale, the clock, what the server will send, whether the
system has a thread to give. -/
structure ConnectEnv where
  resolves : Bool
  endpointsEmpty : Bool
  locale : LocaleInfo
  now : TimePoint
  incoming : List UInt8
  threadStarts : Bool

variable (host : ByteOrder) (ids : PacketIDs)

-- =========================================================== connecting

/-- A method of `*m_Connection`. -/
def onConnection (m : ConnM PUnit) : ClientM PUnit := fun s =>
  match s.mConnection with
  | none => .error (.thrown (.undefined "null m_Connection")) s
  | some conn =>
      match m.run conn with
      | .ok _ conn' => .ok ⟨⟩ { s with mConnection := some conn' }
      | .error e conn' => .error (.thrown e) { s with mConnection := some conn' }

/-- The `Init` packet `Connect()` makes. -/
def initPacket (env : ConnectEnv) (c : PacketClient) : IPacket :=
  Init.toPacket host ids.init
    { gameName := c.mGameName, gameVersion := c.mGameVersion
      clientLocale := env.locale, next := NextInitStep.join }

/-- `m_Connection = std::make_unique<Connection_t>(…)`; the connection
that was there is destroyed. -/
def makeConnection (env : ConnectEnv) : ClientM PUnit :=
  modify fun c => { c with
    mConnection := some
      (Connection.create c.sessions .toServer false env.incoming env.now)
    sessions := c.sessions + 1
    dangling := c.dangling || c.mConnection.any (·.hasPending) }

/-- `m_ThreadContext = std::thread(…)`. -/
def startThread (threadStarts : Bool) : ClientM PUnit := do
  if !threadStarts then
    throw (.thrown (.runtimeError "std::system_error"))
  if (← get).mThreadContext.joinable then
    throw (.terminated .joinableAssigned)
  modify fun c => { c with mThreadContext := .running }

/-- The `try` block of `Connect()`. -/
def tryConnect (env : ConnectEnv) : ClientM PUnit := do
  if !env.resolves then
    throw (.thrown (.runtimeError "std::system_error"))
  if env.endpointsEmpty then
    throw (.thrown (.runtimeError
      "Failed to parse/retrieve destination address"))
  let packet := initPacket host ids env (← get)
  makeConnection env
  onConnection (Connection.connectToServer (some packet))
  startThread env.threadStarts

/-- The `catch` of `Connect()`, for a `std::exception`. -/
def connectFailed : Exit → ClientM Bool
  | .thrown _ => do
      modify fun c => { c with
        mLastDisconnectInfo :=
          { reason := .connectionError, translateMessage := false
            message := "Failed to connect" } }
      pure false
  | .terminated fate => throw (.terminated fate)

/-- What `Connect()` throws. -/
def alreadyConnected : Exit := .thrown (.runtimeError "Already connected")

/-- `Connect(host, port)`. -/
def connect (env : ConnectEnv) : ClientM Bool := do
  if (← get).mCurrentStatus ≠ .disconnected then
    throw alreadyConnected
  tryCatch (do tryConnect host ids env; pure true) connectFailed

-- ======================================================== disconnecting

/-- The user's thread goes on. -/
def goOn (user : User) : ClientM PUnit := modify fun c => { c with user }

/-- The end of `~PacketClient()`: the members are destroyed. -/
def destroyMembers : ClientM PUnit := do
  if (← get).mThreadContext.joinable then
    throw (.terminated .joinableDestroyed)
  modify fun c => { c with fate := some .destroyed }

/-- A call returns; the destructor goes on to the members. -/
def finish (call : DisconnectCall) : ClientM PUnit := do
  goOn .idle
  if call = .destructor then
    destroyMembers

/-- `Disconnect()` and `DisconnectWithError()`: the test. -/
def disconnectTest (call : DisconnectCall) : ClientM PUnit := do
  if !(← get).isConnected then
    finish call
  else
    goOn (.sending call)

/-- `ToServer::Disconnect`, a packet without a body. -/
def disconnectPacket (disconnectID : UInt8) : IPacket :=
  ⟨disconnectID, pure ⟨⟩⟩

/-- An exception leaves the call. -/
def disconnectThrew (call : DisconnectCall) (e : Exit) : ClientM PUnit := do
  goOn .idle
  if call = .destructor then
    throw (.terminated .destructorThrew)
  throw e

/-- `Disconnect()` and `DisconnectWithError()`: the `Send`, up to its
`asio::post`. -/
def disconnectSend (disconnectID : UInt8) (call : DisconnectCall) :
    ClientM PUnit :=
  tryCatch
    (do onConnection (Connection.sendBegin host ids (disconnectPacket disconnectID))
        goOn (.posting (some call)))
    (disconnectThrew call)

/-- `m_IoContext.stop()`, and the thread joined if it can be. -/
def stopThread : ClientM PUnit :=
  modify fun c => { c with mIoContextStopped := true, mThreadContext := .none }

/-- `Disconnect()` and `DisconnectWithError()`: what follows the delay.
`release()` gives the connection up without destroying it. -/
def disconnectEnd (call : DisconnectCall) : ClientM PUnit := do
  stopThread
  modify fun c => { c with
    mConnection := none
    mLastDisconnectInfo :=
      { reason := .clientRequest, translateMessage := false
        message := call.message } }
  finish call

/-- `Send(packet)`, called by the user, up to its `asio::post`. -/
def send (packet : IPacket) : ClientM PUnit := do
  onConnection (Connection.sendBegin host ids packet)
  goOn (.posting none)

-- ================================================================ steps

/-- One step: the user's thread, then the io thread. -/
inductive Action
  | connect (env : ConnectEnv)
  | disconnectTest (call : DisconnectCall)
  | disconnectSend
  | disconnectEnd
  | send (packet : IPacket)
  | post
  | popFront
  | io (a : Connection.Action)
  | runReturns
  | danglingHandler

/-- The io thread is in `run()`, and the context is not stopped. -/
def runs (c : PacketClient) : Bool :=
  c.mThreadContext = .running && !c.mIoContextStopped

/-- There is nothing left for `run()` to wait for. -/
def outOfWork (c : PacketClient) : Bool :=
  !c.dangling && !c.mConnection.any (·.hasPending)

/-- A method called by the user, who lets no exception end the program. -/
def userCall {α : Type} (m : ClientM α) (c : PacketClient) : PacketClient :=
  match m.run c with
  | .ok _ c' => c'
  | .error (.thrown _) c' => c'
  | .error (.terminated fate) c' => { c' with fate := some fate }

/-- The connection took a step: what it received is in the queue, and an
exception that left a handler ends the program. -/
def stepped (c : PacketClient) (conn conn' : Connection) : PacketClient :=
  let received := conn'.mMessagesIn.drop conn.mMessagesIn.length
  { c with
    mConnection := some conn'
    receiveQueue := c.receiveQueue ++ received.map fun m => (conn'.self, m)
    fate := if conn'.escaped.isSome then some .handlerThrew else c.fate }

/-- A step of the connection, if there is one. -/
def connectionStep (a : Connection.Action) (c : PacketClient) :
    Option PacketClient :=
  match c.mConnection with
  | none => none
  | some conn => (Connection.step host ids a conn).map (stepped c conn)

variable (disconnectID : UInt8)

/-- One step, where it is enabled. -/
def event (a : Action) (c : PacketClient) : Option PacketClient :=
  match a with
  | .connect env =>
      if c.user = .idle then
        some (userCall (connect host ids env) c)
      else none
  | .disconnectTest call =>
      if c.user = .idle then
        some (userCall (disconnectTest call) c)
      else none
  | .disconnectSend =>
      match c.user with
      | .sending call =>
          some (userCall (disconnectSend host ids disconnectID call) c)
      | _ => none
  | .disconnectEnd =>
      match c.user with
      | .waiting call => some (userCall (disconnectEnd call) c)
      | _ => none
  | .send packet =>
      if c.user = .idle ∧ c.mConnection.isSome = true then
        some (userCall (send host ids packet) c)
      else none
  | .post =>
      match c.user with
      | .posting call =>
          (connectionStep host ids (.sendEnd 0) c).map fun c' =>
            { c' with user := call.elim .idle .waiting }
      | _ => none
  | .popFront =>
      if c.user = .idle ∧ c.receiveQueue ≠ [] then
        some { c with receiveQueue := c.receiveQueue.tail }
      else none
  | .io a =>
      if a.isHandler && c.runs then connectionStep host ids a c else none
  | .runReturns =>
      if c.mThreadContext = .running
          ∧ (c.mIoContextStopped = true ∨ c.outOfWork = true) then
        some { c with mThreadContext := .returned, mIoContextStopped := true }
      else none
  | .danglingHandler =>
      if c.dangling && c.runs then
        some { c with fate := some .danglingHandler }
      else none

/-- One step, as long as the client lives. -/
def step (a : Action) (c : PacketClient) : Option PacketClient :=
  if c.fate.isSome then none else event host ids disconnectID a c

end PacketClient

end AWEnginePacket
