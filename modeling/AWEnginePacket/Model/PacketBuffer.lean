/-
`PacketBuffer`: a byte vector with a lazy start offset, and the typed
insertion and extraction operators over it.

Reading only moves `mStartOffset`; the next write erases what lies in
front of it. `size` is the difference of the two, as an unsigned 32-bit
number, so it is only the number of unread bytes while the offset has
not passed the end — nothing in the class keeps it from doing so
(`skip`).

Methods that may throw run in `BufferM`, which keeps the buffer as the
throw left it. `std::string` is a list of bytes. `data()` points
`mStartOffset` bytes into the vector; what it points at past the
vector's end is not the program's, and reads as 0 here.
-/
import AWEnginePacket.Model.Basic

namespace AWEnginePacket

open Endian (ByteOrder)

/-- `PacketBuffer`'s members. -/
structure PacketBuffer where
  mData : List UInt8 := []
  mStartOffset : UInt32 := 0
deriving DecidableEq, Repr

/-- Methods of a buffer: they may throw, and keep what they did. -/
abbrev BufferM := EStateM Fault PacketBuffer

namespace PacketBuffer

-- ============================================================ observers

/-- `size()`: the difference of a `size_t` and the offset, cut to 32
bits. -/
def size (b : PacketBuffer) : UInt32 :=
  UInt32.ofNat b.mData.length - b.mStartOffset

/-- `empty()`. -/
def empty (b : PacketBuffer) : Bool := b.size ≤ 0

/-- `data()[i]`. -/
def byteAt (b : PacketBuffer) (i : Nat) : UInt8 :=
  b.mData.getD (b.mStartOffset.toNat + i) 0

/-- The first `n` bytes from `data()` on. -/
def bytesFrom (b : PacketBuffer) (n : Nat) : List UInt8 :=
  (List.range n).map b.byteAt

/-- The bytes a call given `data()` and `size()` sees. -/
def bytes (b : PacketBuffer) : List UInt8 := b.bytesFrom b.size.toNat

/-- `Save(out)`, to a stream or to memory: the bytes it writes. -/
def save (b : PacketBuffer) : List UInt8 := b.bytes

-- ============================================================ plain state

/-- `resize(byteCount)`: cut or zero-filled at the end. -/
def resize (b : PacketBuffer) (byteCount : Nat) : PacketBuffer :=
  { b with mData := b.mData.take byteCount
      ++ List.replicate (byteCount - b.mData.length) 0 }

/-- Bytes stored through the pointer `data()`, as a completed
`async_read` leaves them. -/
def store (b : PacketBuffer) (bs : List UInt8) : PacketBuffer :=
  { b with mData := b.mData.take b.mStartOffset.toNat ++ bs
      ++ b.mData.drop (b.mStartOffset.toNat + bs.length) }

/-- `Clear()`. -/
def clear (_ : PacketBuffer) : PacketBuffer := { mData := [], mStartOffset := 0 }

-- ================================================================ write

/-- `RemoveStartOffset()`. The iterator `begin() + m_StartOffset` has to
lie in the vector. -/
def removeStartOffset : BufferM PUnit := do
  let b ← get
  if b.mStartOffset ≠ 0 then
    if b.mData.length < b.mStartOffset.toNat then
      throw (.undefined "erase() past the end of a vector")
    set { mData := b.mData.drop b.mStartOffset.toNat, mStartOffset := 0
          : PacketBuffer }

/-- `Write(uint8_t)`. -/
def write (val : UInt8) : BufferM PUnit := do
  removeStartOffset
  if (← get).mData.length ≥ uint32Max then
    throw (.runtimeError "Buffer is full")
  modify fun b => { b with mData := b.mData ++ [val] }

/-- `Write(uint32_t size, const uint8_t* val)`; the list holds the
`size` bytes `val` points at. -/
def writeArray (val : List UInt8) : BufferM PUnit := do
  removeStartOffset
  if (← get).mData.length + val.length > uint32Max then
    throw (.runtimeError "Buffer would be full")
  modify fun b => { b with mData := b.mData ++ val }

-- ================================================================= read

/-- `Read()`. -/
def read : BufferM UInt8 := do
  let b ← get
  match b.mData[b.mStartOffset.toNat]? with
  | none => throw (.runtimeError "Attempt to read outside of the buffer")
  | some v =>
      set { b with mStartOffset := b.mStartOffset + 1 }
      pure v

/-- `Read(uint8_t& val)`: `none` is the result `false`. -/
def tryRead : BufferM (Option UInt8) := do
  let b ← get
  match b.mData[b.mStartOffset.toNat]? with
  | none => pure none
  | some v =>
      set { b with mStartOffset := b.mStartOffset + 1 }
      pure (some v)

/-- `ReadArray(data, dataLength)`: the bytes it filled, as many as it
returns. -/
def readArray : Nat → BufferM (List UInt8)
  | 0 => pure []
  | n + 1 => do
      match ← tryRead with
      | none => pure []
      | some v =>
          let vs ← readArray n
          pure (v :: vs)

-- ================================================================= peek

/-- `Peek(offset)`; the sum is one of 32 bits. -/
def peek (offset : UInt8) : BufferM UInt8 := do
  let b ← get
  match b.mData[(b.mStartOffset + offset.toUInt32).toNat]? with
  | none => throw (.runtimeError "Attempt to peek outside of the buffer")
  | some v => pure v

/-- The loop of both `PeekArray()`s, at its `i`-th byte: the bytes it
fills, as many as the method returns. -/
def peekLoop (b : PacketBuffer) : Nat → Nat → List UInt8
  | 0, _ => []
  | n + 1, i =>
      match b.mData[b.mStartOffset.toNat + i]? with
      | none => []
      | some v => v :: peekLoop b n (i + 1)

/-- `PeekArray(data, dataLength) const`. -/
def peekArrayConst (dataLength : UInt32) : BufferM (List UInt8) := do
  let b ← get
  if dataLength.toNat + b.mStartOffset.toNat > uint32Max then
    throw (.runtimeError "Too long read. Requested data length + (internal) data offset > uint32::max")
  pure (b.peekLoop dataLength.toNat 0)

/-- `PeekArray(data, dataLength)`. -/
def peekArray (dataLength : UInt32) : BufferM (List UInt8) := do
  let b ← get
  if dataLength.toNat + b.mStartOffset.toNat > uint32Max then
    removeStartOffset
  let b ← get
  pure (b.peekLoop dataLength.toNat 0)

/-- `Skip(byteCount)`. -/
def skip (byteCount : UInt8) : BufferM PUnit :=
  modify fun b => { b with mStartOffset := b.mStartOffset + byteCount.toUInt32 }

-- ===================================================== typed operators

variable (host : ByteOrder)

/-- The insertion loop of the integer operators: convert to
little-endian, write the bytes of the object in memory order. -/
def putInt (n x : Nat) : BufferM PUnit :=
  (host.store n (host.htole n x)).forM write

/-- Read `n` bytes into an object's memory, throwing on the first that
is not there. -/
def readInto : Nat → BufferM (List UInt8)
  | 0 => pure []
  | n + 1 => do
      let v ← read
      let vs ← readInto n
      pure (v :: vs)

/-- The extraction loop of the integer operators: fill the object's
memory, convert from little-endian. -/
def getInt (n : Nat) : BufferM Nat := do
  let bs ← readInto n
  pure (host.htole n (host.load bs))

/-- `operator<<(PacketBuffer&, uint8_t)`. -/
def putUInt8 (value : UInt8) : BufferM PUnit := write value

/-- `operator>>(PacketBuffer&, uint8_t&)`. -/
def getUInt8 : BufferM UInt8 := read

/-- `operator<<(PacketBuffer&, uint16_t)`. -/
def putUInt16 (value : UInt16) : BufferM PUnit := putInt host 2 value.toNat

/-- `operator>>(PacketBuffer&, uint16_t&)`. -/
def getUInt16 : BufferM UInt16 := do
  let value ← getInt host 2
  pure (UInt16.ofNat value)

/-- `operator<<(PacketBuffer&, uint32_t)`. -/
def putUInt32 (value : UInt32) : BufferM PUnit := putInt host 4 value.toNat

/-- `operator>>(PacketBuffer&, uint32_t&)`. -/
def getUInt32 : BufferM UInt32 := do
  let value ← getInt host 4
  pure (UInt32.ofNat value)

/-- `operator<<(PacketBuffer&, uint64_t)`. -/
def putUInt64 (value : UInt64) : BufferM PUnit := putInt host 8 value.toNat

/-- `operator>>(PacketBuffer&, uint64_t&)`. -/
def getUInt64 : BufferM UInt64 := do
  let value ← getInt host 8
  pure (UInt64.ofNat value)

-- Signed integers are their unsigned counterparts' bits: on insertion
-- the conversion macro takes and returns the unsigned type, on
-- extraction an unsigned temporary is converted at the end.

/-- `operator<<(PacketBuffer&, int8_t)`. -/
def putInt8 (value : Int8) : BufferM PUnit := write value.toUInt8

/-- `operator>>(PacketBuffer&, int8_t&)`. -/
def getInt8 : BufferM Int8 := do
  let v ← read
  pure v.toInt8

/-- `operator<<(PacketBuffer&, int16_t)`. -/
def putInt16 (value : Int16) : BufferM PUnit :=
  putInt host 2 value.toUInt16.toNat

/-- `operator>>(PacketBuffer&, int16_t&)`. -/
def getInt16 : BufferM Int16 := do
  let v ← getInt host 2
  pure (UInt16.ofNat v).toInt16

/-- `operator<<(PacketBuffer&, int32_t)`. -/
def putInt32 (value : Int32) : BufferM PUnit :=
  putInt host 4 value.toUInt32.toNat

/-- `operator>>(PacketBuffer&, int32_t&)`. -/
def getInt32 : BufferM Int32 := do
  let v ← getInt host 4
  pure (UInt32.ofNat v).toInt32

/-- `operator<<(PacketBuffer&, int64_t)`. -/
def putInt64 (value : Int64) : BufferM PUnit :=
  putInt host 8 value.toUInt64.toNat

/-- `operator>>(PacketBuffer&, int64_t&)`. -/
def getInt64 : BufferM Int64 := do
  let v ← getInt host 8
  pure (UInt64.ofNat v).toInt64

/-- `operator<<(PacketBuffer&, float)`; a `float` is its bit pattern. -/
def putFloat (value : UInt32) : BufferM PUnit := putUInt32 host value

/-- `operator>>(PacketBuffer&, float&)`. -/
def getFloat : BufferM UInt32 := getUInt32 host

/-- `operator<<(PacketBuffer&, double)`; a `double` is its bit pattern. -/
def putDouble (value : UInt64) : BufferM PUnit := putUInt64 host value

/-- `operator>>(PacketBuffer&, double&)`. -/
def getDouble : BufferM UInt64 := getUInt64 host

/-- `operator<<(PacketBuffer&, const char*)`: `none` is the null
pointer, a list the characters it points at, of which those before the
first NUL are the string. -/
def putCString (value : Option (List UInt8)) : BufferM PUnit := do
  match value with
  | none => putUInt16 host 0
  | some memory =>
      let characters := memory.takeWhile (· ≠ 0)
      if characters.length > uint16Max then
        throw (.runtimeError "String is too long (exceeds uint16 limit)")
      putUInt16 host (UInt16.ofNat characters.length)
      characters.forM write

/-- `operator<<(PacketBuffer&, const std::string&)`. -/
def putString (value : List UInt8) : BufferM PUnit := do
  if value.length > uint16Max then
    throw (.runtimeError "String is too long (exceeds uint16 limit)")
  putUInt16 host (UInt16.ofNat value.length)
  value.forM write

/-- `operator>>(PacketBuffer&, std::string&)`; the stack and heap
variants differ only in where the temporary array lives. -/
def getString : BufferM (List UInt8) := do
  let length ← getUInt16 host
  let arr ← readArray length.toNat
  if length.toNat ≠ arr.length then
    throw (.runtimeError
      "There were not data for whole string (length pointed outside of buffer)")
  pure arr

-- =========================================================== containers

/-- `operator<<(PacketBuffer&, const std::array<T, N>&)`; `put` is the
insertion of a `T`. -/
def putArray {T : Type} (put : T → BufferM PUnit) (value : List T) :
    BufferM PUnit :=
  value.forM put

/-- `operator>>(PacketBuffer&, std::array<T, N>&)`: the memory of `value`
before and after. It reads `N` bytes, whatever `sizeof(T)`. -/
def getArray (n : Nat) (value : List UInt8) : BufferM (List UInt8) := do
  let arr ← readArray (UInt32.ofNat n).toNat
  if n ≠ arr.length then
    throw (.runtimeError
      "There were not data for whole array (length pointed outside of buffer)")
  pure (arr ++ value.drop n)

/-- `operator<<(PacketBuffer&, const std::vector<T>&)`. -/
def putVector {T : Type} (put : T → BufferM PUnit) (value : List T) :
    BufferM PUnit := do
  if value.length > uint16Max then
    throw (.runtimeError "Vector is too long (exceeds uint16 limit)")
  putUInt16 host (UInt16.ofNat value.length)
  value.forM put

/-- `operator>>(PacketBuffer&, std::vector<T>&)`: the memory of `value`
before and after. It is resized to as many elements as it is to have
bytes. -/
def getVector (sizeOfT : Nat) (value : List UInt8) :
    BufferM (List UInt8) := do
  let length ← getUInt16 host
  let byteSize := length.toNat * sizeOfT
  let memory := value.take (byteSize * sizeOfT)
    ++ List.replicate (byteSize * sizeOfT - value.length) 0
  let arr ← readArray (UInt32.ofNat byteSize).toNat
  if byteSize ≠ arr.length then
    throw (.runtimeError
      "There were not data for whole array (length pointed outside of buffer)")
  pure (arr ++ memory.drop byteSize)

end PacketBuffer

end AWEnginePacket
