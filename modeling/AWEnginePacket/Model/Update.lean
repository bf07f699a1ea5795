/-
`PacketServer::Update()`: the queue of received messages, handed to the
application one by one.

The callbacks are the user's: `OnMessage` may change the message it is
given before the parser sees it, and each may throw. They work on
whatever the user has (`σ`), which the queue is no part of. What
`Update` does before the loop when it is asked to wait is
`ThreadSafeQueue::wait()`.
-/
import AWEnginePacket.Model.Connection

namespace AWEnginePacket

/-- The callbacks of a server that `Update()` calls. -/
structure UpdateCallbacks (σ : Type) where
  onMessage : Option (Option Nat → PacketSendInfo → EStateM Fault σ PacketSendInfo)
  parsePacket : PacketSendInfo → EStateM Fault σ (Option IPacket)
  onPacket : Option (Option Nat → IPacket → EStateM Fault σ PUnit)

/-- What `Update()` works on. -/
structure UpdateState (σ : Type) where
  mMessageInQueue : List OwnedMessage
  user : σ

/-- `Update()` and its parts: they may throw, and keep what they did. -/
abbrev UpdateM (σ : Type) := EStateM Fault (UpdateState σ)

namespace PacketServer

variable {σ α : Type} (callbacks : UpdateCallbacks σ)

/-- A call of a callback. -/
def callUser (m : EStateM Fault σ α) : UpdateM σ α := fun s =>
  match m.run s.user with
  | .ok a user => .ok a { s with user }
  | .error e user => .error e { s with user }

/-- `m_MessageInQueue.pop_front()`. -/
def popMessage : UpdateM σ OwnedMessage := do
  let s ← get
  match s.mMessageInQueue with
  | [] => throw (.undefined "front() of an empty deque")
  | msg :: rest =>
      set { s with mMessageInQueue := rest }
      pure msg

/-- The exception `Update()` throws itself. -/
def compressionFault : Fault :=
  .runtimeError "Packet compression is not supported"

/-- `OnMessage()`, if there is one: the message as it leaves it. -/
def messageArrived (msg : OwnedMessage) : UpdateM σ PacketSendInfo :=
  match callbacks.onMessage with
  | none => pure msg.second
  | some onMessage => callUser (onMessage msg.first msg.second)

/-- `OnPacket()`, if there is one and the parser made a packet. -/
def packetArrived (owner : Option Nat) (packet : Option IPacket) :
    UpdateM σ PUnit :=
  match packet, callbacks.onPacket with
  | some packet, some onPacket => callUser (onPacket owner packet)
  | _, _ => pure ⟨⟩

/-- The body of the loop of `Update()`. -/
def updateOne : UpdateM σ PUnit := do
  let msg ← popMessage
  if PacketFlags.test msg.second.header.flags PacketFlags.compressed then
    throw compressionFault
  let info ← messageArrived callbacks msg
  let packet ← callUser (callbacks.parsePacket info)
  packetArrived callbacks msg.first packet

/-- The loop of `Update()`, which goes round as often as there are
messages, at most. -/
def updateLoop (maximumMessages : UInt64) : Nat → Nat → UpdateM σ Nat
  | 0, messageIndex => pure messageIndex
  | rounds + 1, messageIndex => do
      let s ← get
      if !s.mMessageInQueue.isEmpty
          && messageIndex < maximumMessages.toNat then
        updateOne callbacks
        updateLoop maximumMessages rounds (messageIndex + 1)
      else
        pure messageIndex

/-- `Update(maximumMessages)`. -/
def update (maximumMessages : UInt64) : UpdateM σ Nat := do
  if maximumMessages = 0 then
    pure 0
  else
    let s ← get
    updateLoop callbacks maximumMessages s.mMessageInQueue.length 0

end PacketServer

end AWEnginePacket
