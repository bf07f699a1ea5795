/-
The vocabulary the packet code shares: faults, flags, directions, the
header as it lies in memory, and the byte-order macros.

Numbers keep the source's widths (`UInt8` … `UInt64`); `std::size_t`
counters and container sizes are `Nat`. A packet ID type is an enum
over one byte (the source asserts `sizeof(TPacketID) == 1`), so an ID
is a `UInt8`. `char` is a `UInt8` too: the code only compares
characters against ASCII letters, where signedness makes no
difference.
-/
import AWEnginePacket.Lib.Endian

namespace AWEnginePacket

open Endian (ByteOrder)

-- =============================================================== faults

/-- How a call ends abnormally: a `std::runtime_error` with its text, or
a library call whose behaviour the language leaves undefined. -/
inductive Fault
  | runtimeError (what : String)
  | undefined (what : String)
deriving DecidableEq, Repr

/-- `std::numeric_limits<uint16_t>::max()`. -/
def uint16Max : Nat := 65535

/-- `std::numeric_limits<uint32_t>::max()`. -/
def uint32Max : Nat := 4294967295

-- ======================================================== protocol info

/-- `PacketDirection`: which end a connection points at. `toClient` is
the server's side of a connection, `toServer` the client's. -/
inductive PacketDirection
  | toClient
  | toServer
deriving DecidableEq, Repr

/-- `PacketFlags`: eight flag bits. -/
abbrev PacketFlags := UInt8

/-- `PacketFlags{}`. -/
def PacketFlags.none : PacketFlags := 0

/-- `PacketFlags::Compressed`. -/
def PacketFlags.compressed : PacketFlags := 1

/-- The flag test `a & b`, a `bool`. -/
def PacketFlags.test (a b : PacketFlags) : Bool := (a &&& b) != 0

/-- `std::chrono::system_clock::time_point`: nanoseconds since the
epoch. `TimePoint_t()` is the epoch itself. -/
abbrev TimePoint := Int

/-- The two packet IDs a `Connection` treats specially, its template
parameters `PacketID_KeepAlive` and `PacketID_Init`. -/
structure PacketIDs where
  keepAlive : UInt8
  init : UInt8
deriving DecidableEq, Repr

-- ======================================================= portable endian

variable (host : ByteOrder)

/-- `htobe16`; the argument is converted to 16 bits first. -/
def htobe16 (x : UInt16) : UInt16 := UInt16.ofNat (host.htobe 2 x.toNat)

/-- `be16toh`. -/
def be16toh (x : UInt16) : UInt16 := UInt16.ofNat (host.htobe 2 x.toNat)

/-- A `const uint64_t*` dereferenced over eight bytes of memory. -/
def loadUInt64 (bs : List UInt8) : UInt64 := UInt64.ofNat (host.load bs)

-- =============================================================== header

/-- `PacketHeader`. `size` is the field as it stands in memory, in
whichever byte order the code last put it. -/
structure PacketHeader where
  id : UInt8 := 0
  flags : PacketFlags := PacketFlags.none
  size : UInt16 := 0
deriving DecidableEq, Repr

namespace PacketHeader

/-- `sizeof(PacketSendInfo::Header)`. -/
def sizeOf : Nat := 4

/-- The four bytes of the header in the host's memory. -/
def toMemory (h : PacketHeader) : List UInt8 :=
  [h.id, h.flags] ++ host.store 2 h.size.toNat

/-- The header four bytes in the host's memory make. -/
def ofMemory : List UInt8 → PacketHeader
  | id :: flags :: size =>
      ⟨id, flags, UInt16.ofNat (host.load (size.take 2))⟩
  | _ => {}

end PacketHeader

end AWEnginePacket
