/-
Packets: what `IPacket` asks of a packet class, and the classes of the
protocol.

A packet is an ID and a `Write` into a buffer; `Write` is any method of
a buffer, so a packet class of a game is covered as well as the ones
below. A decoding constructor is a method of the buffer that returns
the object.

`operator>>(PacketBuffer&, ProtocolGameName)` takes the name by value:
the eight bytes are consumed and end up in the callee's copy, and the
object the caller named keeps the value its default constructor gave
it.
-/
import AWEnginePacket.Model.Locale

namespace AWEnginePacket

open Endian (ByteOrder)
open PacketBuffer

-- ============================================================ game names

/-- `ProtocolGameName`: eight characters. -/
structure ProtocolGameName where
  charData : Vector UInt8 8
deriving DecidableEq, Repr

namespace ProtocolGameName

/-- `ProtocolGameName::CharLength`. -/
def charLength : Nat := 8

/-- `ProtocolGameName()`: `NumericData(0)`. -/
def zero : ProtocolGameName := ⟨Vector.replicate 8 0⟩

/-- `operator<<(PacketBuffer&, ProtocolGameName)`. -/
def put (gameName : ProtocolGameName) : BufferM PUnit :=
  writeArray gameName.charData.toList

/-- `operator>>(PacketBuffer&, ProtocolGameName)`: the value its own
parameter has when it returns, which no caller sees. -/
def get (_gameName : ProtocolGameName) : BufferM ProtocolGameName := do
  let readBytes ← readArray charLength
  let filled := readBytes ++ List.replicate (charLength - readBytes.length) 0
  pure ⟨Vector.ofFn fun i => filled.getD i 0⟩

end ProtocolGameName

-- =============================================================== packets

/-- `IPacket`: an ID and a way to write the body. -/
structure IPacket where
  id : UInt8
  write : BufferM PUnit

variable (host : ByteOrder)

/-- `Ping`. -/
structure Ping where
  payload : UInt64
deriving DecidableEq, Repr

/-- `Ping()`: the current time in seconds. -/
def Ping.create (now : TimePoint) : Ping :=
  ⟨UInt64.ofInt (now.tdiv 1000000000)⟩

/-- `Ping::Write`, under the ID the class was given. -/
def Ping.toPacket (id : UInt8) (p : Ping) : IPacket :=
  ⟨id, putUInt64 host p.payload⟩

/-- `Kick::MessageType`, an enum over one byte: `Raw` 0, `Translatable`
1. -/
abbrev Kick.MessageType := UInt8

/-- `Kick`. -/
structure Kick where
  type : Kick.MessageType
  message : List UInt8
deriving DecidableEq, Repr

/-- `Kick::Write`: nothing at all for an empty message. -/
def Kick.toPacket (id : UInt8) (p : Kick) : IPacket :=
  ⟨id, do
    if p.message ≠ [] then
      putUInt8 p.type
      putString host p.message⟩

/-- `Kick::MessageType::Raw`. -/
def Kick.MessageType.raw : Kick.MessageType := 0

/-- `Kick::Kick(PacketBuffer&)`: an empty body is a `Raw` one. -/
def Kick.parse : BufferM Kick := do
  if (← get).empty then
    pure ⟨Kick.MessageType.raw, []⟩
  else
    let type ← getUInt8
    let message ← getString host
    pure ⟨type, message⟩

/-- `NextInitStep`, an enum over one byte. -/
abbrev NextInitStep := UInt8

/-- `NextInitStep::ServerInfo`. -/
def NextInitStep.serverInfo : NextInitStep := 0

/-- `NextInitStep::Join`. -/
def NextInitStep.join : NextInitStep := 1

/-- `Login::Init`. -/
structure Init where
  gameName : ProtocolGameName
  gameVersion : UInt32
  clientLocale : LocaleInfo
  next : NextInitStep
deriving DecidableEq, Repr

namespace Init

/-- `Init::Write`. -/
def write (p : Init) : BufferM PUnit := do
  p.gameName.put
  putUInt32 host p.gameVersion
  p.clientLocale.put
  putUInt8 p.next

/-- `Init::Init(PacketBuffer&)`. -/
def parse : BufferM Init := do
  let gameName := ProtocolGameName.zero
  let _ ← gameName.get
  let gameVersion ← getUInt32 host
  let clientLocale ← LocaleInfo.get
  let next ← getUInt8
  pure ⟨gameName, gameVersion, clientLocale, next⟩

/-- An `Init` as a packet. -/
def toPacket (id : UInt8) (p : Init) : IPacket := ⟨id, p.write host⟩

end Init

/-- `Login::ServerInfo`. -/
structure ServerInfo where
  gameName : ProtocolGameName
  gameVersion : UInt32
  jsonString : List UInt8
deriving DecidableEq, Repr

namespace ServerInfo

/-- `ServerInfo::Write`. -/
def write (p : ServerInfo) : BufferM PUnit := do
  p.gameName.put
  putUInt32 host p.gameVersion
  putString host p.jsonString

/-- `ServerInfo::ServerInfo(PacketBuffer&)`. -/
def parse : BufferM ServerInfo := do
  let gameName := ProtocolGameName.zero
  let _ ← gameName.get
  let gameVersion ← getUInt32 host
  let jsonString ← getString host
  pure ⟨gameName, gameVersion, jsonString⟩

/-- A `ServerInfo` as a packet. -/
def toPacket (id : UInt8) (p : ServerInfo) : IPacket := ⟨id, p.write host⟩

end ServerInfo

end AWEnginePacket
