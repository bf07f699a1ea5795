/-
The container operators at the fixed-width integer types.

`PacketBuffer`'s container operators are templates: they take the
elements through the element type's own operators, or as raw memory.
`IntType` is what they can be instantiated with here, `Elem` the
values, and `toMemory` and `ofMemory` are what a `reinterpret_cast`
sees of one on a host. An `std::vector<T>` is a list of elements and an
`std::array<T, N>` a `Vector` of `N`.
-/
import AWEnginePacket.Model.PacketBuffer

namespace AWEnginePacket

open Endian (ByteOrder)

/-- The fixed-width integer types. -/
inductive IntType
  | int8
  | uint8
  | int16
  | uint16
  | int32
  | uint32
  | int64
  | uint64
deriving DecidableEq, Repr

namespace IntType

/-- `T`. -/
abbrev Elem : IntType → Type
  | int8 => Int8
  | uint8 => UInt8
  | int16 => Int16
  | uint16 => UInt16
  | int32 => Int32
  | uint32 => UInt32
  | int64 => Int64
  | uint64 => UInt64

/-- `sizeof(T)`. -/
def sizeOf : IntType → Nat
  | int8 => 1
  | uint8 => 1
  | int16 => 2
  | uint16 => 2
  | int32 => 4
  | uint32 => 4
  | int64 => 8
  | uint64 => 8

/-- The bits of a value, as an unsigned number. -/
def toBits : (t : IntType) → t.Elem → Nat
  | int8, x => x.toUInt8.toNat
  | uint8, x => x.toNat
  | int16, x => x.toUInt16.toNat
  | uint16, x => x.toNat
  | int32, x => x.toUInt32.toNat
  | uint32, x => x.toNat
  | int64, x => x.toUInt64.toNat
  | uint64, x => x.toNat

/-- The value with the given bits. -/
def ofBits : (t : IntType) → Nat → t.Elem
  | int8, n => (UInt8.ofNat n).toInt8
  | uint8, n => UInt8.ofNat n
  | int16, n => (UInt16.ofNat n).toInt16
  | uint16, n => UInt16.ofNat n
  | int32, n => (UInt32.ofNat n).toInt32
  | uint32, n => UInt32.ofNat n
  | int64, n => (UInt64.ofNat n).toInt64
  | uint64, n => UInt64.ofNat n

variable (host : ByteOrder)

/-- `buffer << x`, by the overload for `T`. -/
def put : (t : IntType) → t.Elem → BufferM PUnit
  | int8, x => PacketBuffer.putInt8 x
  | uint8, x => PacketBuffer.putUInt8 x
  | int16, x => PacketBuffer.putInt16 host x
  | uint16, x => PacketBuffer.putUInt16 host x
  | int32, x => PacketBuffer.putInt32 host x
  | uint32, x => PacketBuffer.putUInt32 host x
  | int64, x => PacketBuffer.putInt64 host x
  | uint64, x => PacketBuffer.putUInt64 host x

variable (t : IntType)

/-- The object representation of a value. -/
def toMemory (x : t.Elem) : List UInt8 := host.store t.sizeOf (t.toBits x)

/-- The value a stretch of memory is the representation of. -/
def ofMemory (memory : List UInt8) : t.Elem := t.ofBits (host.load memory)

/-- `reinterpret_cast<const T*>(memory)[i]`. -/
def element (memory : List UInt8) (i : Nat) : t.Elem :=
  t.ofMemory host ((memory.drop (i * t.sizeOf)).take t.sizeOf)

/-- A stretch of memory as elements. -/
def elements (memory : List UInt8) : List t.Elem :=
  (List.range (memory.length / t.sizeOf)).map (t.element host memory)

-- =========================================================== the operators

/-- `operator<<(PacketBuffer&, const std::vector<T>&)`. -/
def putVector (value : List t.Elem) : BufferM PUnit :=
  PacketBuffer.putVector host (t.put host) value

/-- `operator>>(PacketBuffer&, std::vector<T>&)` into a vector that was
`value`. -/
def getVector (value : List t.Elem) : BufferM (List t.Elem) := do
  let memory ← PacketBuffer.getVector host t.sizeOf
    (value.flatMap (t.toMemory host))
  pure (t.elements host memory)

/-- `operator<<(PacketBuffer&, const std::array<T, N>&)`. -/
def putArray {n : Nat} (value : Vector t.Elem n) : BufferM PUnit :=
  PacketBuffer.putArray (t.put host) value.toList

/-- `operator>>(PacketBuffer&, std::array<T, N>&)` into an array that was
`value`. -/
def getArray {n : Nat} (value : Vector t.Elem n) :
    BufferM (Vector t.Elem n) := do
  let memory ← PacketBuffer.getArray n
    (value.toList.flatMap (t.toMemory host))
  pure (Vector.ofFn fun i => t.element host memory i)

end IntType

end AWEnginePacket
