/-
What a user can do to a `PacketBuffer`, as data.

# Values

`Value` is one value with an insertion and an extraction operator of
its own type; `ValueType` is what the extraction's overload is chosen
by. A `float` and a `double` are their bit patterns. `Insertion` adds
what can only be inserted: a character pointer, and the two containers,
whose elements may be containers again.

# Calls

`Call` is one public call with its arguments, `perform` runs it, and
`Outcome` is what its caller sees of it. Two things that are public are
left out: `operator[]` and the pointer `data()` hand out references and
move nothing.
-/
import AWEnginePacket.Model.PacketBuffer

namespace AWEnginePacket

open Endian (ByteOrder)

namespace PacketBuffer

-- =============================================================== values

/-- A value the buffer has an insertion and an extraction for. -/
inductive Value
  | int8 (value : Int8)
  | uint8 (value : UInt8)
  | int16 (value : Int16)
  | uint16 (value : UInt16)
  | int32 (value : Int32)
  | uint32 (value : UInt32)
  | int64 (value : Int64)
  | uint64 (value : UInt64)
  | float (bits : UInt32)
  | double (bits : UInt64)
  | string (value : List UInt8)
deriving DecidableEq

/-- The type of a value. -/
inductive ValueType
  | int8
  | uint8
  | int16
  | uint16
  | int32
  | uint32
  | int64
  | uint64
  | float
  | double
  | string
deriving DecidableEq, Repr

/-- The type an extraction has to name to get the value back. -/
def Value.type : Value → ValueType
  | .int8 _ => .int8
  | .uint8 _ => .uint8
  | .int16 _ => .int16
  | .uint16 _ => .uint16
  | .int32 _ => .int32
  | .uint32 _ => .uint32
  | .int64 _ => .int64
  | .uint64 _ => .uint64
  | .float _ => .float
  | .double _ => .double
  | .string _ => .string

variable (host : ByteOrder)

/-- `buffer << value`. -/
def Value.put : Value → BufferM PUnit
  | .int8 value => putInt8 value
  | .uint8 value => putUInt8 value
  | .int16 value => putInt16 host value
  | .uint16 value => putUInt16 host value
  | .int32 value => putInt32 host value
  | .uint32 value => putUInt32 host value
  | .int64 value => putInt64 host value
  | .uint64 value => putUInt64 host value
  | .float bits => putFloat host bits
  | .double bits => putDouble host bits
  | .string value => putString host value

/-- `buffer >> value`, for a `value` of the given type. -/
def ValueType.get : ValueType → BufferM Value
  | .int8 => do pure (.int8 (← getInt8))
  | .uint8 => do pure (.uint8 (← getUInt8))
  | .int16 => do pure (.int16 (← getInt16 host))
  | .uint16 => do pure (.uint16 (← getUInt16 host))
  | .int32 => do pure (.int32 (← getInt32 host))
  | .uint32 => do pure (.uint32 (← getUInt32 host))
  | .int64 => do pure (.int64 (← getInt64 host))
  | .uint64 => do pure (.uint64 (← getUInt64 host))
  | .float => do pure (.float (← getFloat host))
  | .double => do pure (.double (← getDouble host))
  | .string => do pure (.string (← getString host))

/-- `buffer << v₁ << v₂ …`. -/
def putAll (values : List Value) : BufferM PUnit :=
  values.forM (Value.put host)

/-- `buffer >> v₁ >> v₂ …`. -/
def getAll : List ValueType → BufferM (List Value)
  | [] => pure []
  | t :: ts => do
      let v ← t.get host
      let vs ← getAll ts
      pure (v :: vs)

/-- Anything with an insertion operator. -/
inductive Insertion
  | value (v : Value)
  | cString (s : Option (List UInt8))
  | array (n : Nat) (vs : Fin n → Insertion)
  | vector (n : Nat) (vs : Fin n → Insertion)

/-- `buffer << value`. -/
def Insertion.put : Insertion → BufferM PUnit
  | .value v => v.put host
  | .cString s => putCString host s
  | .array n vs => putArray (fun i => (vs i).put) (List.finRange n)
  | .vector n vs => putVector host (fun i => (vs i).put) (List.finRange n)

-- ================================================================ calls

/-- A public call. -/
inductive Call
  | write (val : UInt8)
  | writeArray (val : List UInt8)
  | read
  | tryRead
  | readArray (dataLength : UInt32)
  | peek (offset : UInt8)
  | peekArrayConst (dataLength : UInt32)
  | peekArray (dataLength : UInt32)
  | skip (byteCount : UInt8)
  | resize (byteCount : UInt32)
  | reserve (byteCount : Nat)
  | clear
  | save
  | insert (v : Insertion)
  | extract (type : ValueType)
  | extractArray (n : Nat) (value : List UInt8)
  | extractVector (sizeOfT : Nat) (value : List UInt8)

/-- What a call gives back. -/
inductive Outcome
  | unit
  | byte (val : UInt8)
  | tried (val : Option UInt8)
  | bytes (data : List UInt8)
  | value (v : Value)
  | threw (fault : Fault)
deriving DecidableEq

/-- A call on a buffer. `reserve` moves the bytes and changes none. -/
def perform : Call → BufferM Outcome
  | .write val => do write val; pure .unit
  | .writeArray val => do writeArray val; pure .unit
  | .read => do pure (.byte (← read))
  | .tryRead => do pure (.tried (← tryRead))
  | .readArray dataLength => do pure (.bytes (← readArray dataLength.toNat))
  | .peek offset => do pure (.byte (← peek offset))
  | .peekArrayConst dataLength => do
      pure (.bytes (← peekArrayConst dataLength))
  | .peekArray dataLength => do pure (.bytes (← peekArray dataLength))
  | .skip byteCount => do skip byteCount; pure .unit
  | .resize byteCount => do
      modify fun b => b.resize byteCount.toNat
      pure .unit
  | .reserve _ => pure .unit
  | .clear => do modify clear; pure .unit
  | .save => do pure (.bytes (← get).save)
  | .insert v => do v.put host; pure .unit
  | .extract type => do pure (.value (← type.get host))
  | .extractArray n value => do pure (.bytes (← getArray n value))
  | .extractVector sizeOfT value => do
      pure (.bytes (← getVector host sizeOfT value))

/-- A call and what its caller sees of it, an exception being one of the
things to see. -/
def respond (c : Call) (b : PacketBuffer) : Outcome × PacketBuffer :=
  match (perform host c).run b with
  | .ok r b' => (r, b')
  | .error e b' => (.threw e, b')

/-- A run of calls: an exception leaves the buffer to the next one. -/
def step (c : Call) (b : PacketBuffer) : Option PacketBuffer :=
  some (respond host c b).2

end PacketBuffer

end AWEnginePacket
