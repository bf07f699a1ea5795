/-
The buffer format, value by value: whatever is inserted comes back.

`Value.wire` is the format: the bytes a value lies in, the same on every
host. Each insertion emits a value's wire and each extraction consumes
it (`emits_value`, `consumes_value`); the twelve operator pairs come
down to the integer loops and the string's prefix. Lists of values then
compose by the queue rules, and the round trip is the two sides meeting
at `wire`.
-/
import AWEnginePacket.Model.BufferCalls
import AWEnginePacket.Proofs.Buffer

namespace AWEnginePacket

open Endian (ByteOrder leBytes)
open Effect
open QueueCodec

namespace PacketBuffer

-- ============================================================== the wire

/-- The bytes of a value in a buffer. -/
def Value.wire : Value → List UInt8
  | .int8 value => [value.toUInt8]
  | .uint8 value => [value]
  | .int16 value => leBytes 2 value.toUInt16.toNat
  | .uint16 value => leBytes 2 value.toNat
  | .int32 value => leBytes 4 value.toUInt32.toNat
  | .uint32 value => leBytes 4 value.toNat
  | .int64 value => leBytes 8 value.toUInt64.toNat
  | .uint64 value => leBytes 8 value.toNat
  | .float bits => leBytes 4 bits.toNat
  | .double bits => leBytes 8 bits.toNat
  | .string value => stringBytes value

/-- The bytes of a list of values. -/
def wire (values : List Value) : List UInt8 := values.flatMap Value.wire

/-- A value the buffer takes: the length of a string has two bytes. -/
def Value.Fits : Value → Prop
  | .string value => value.length ≤ uint16Max
  | _ => True

variable (host : ByteOrder)

-- ============================================================= insertion

theorem emits_value {v : Value} (h : v.Fits) :
    Emits unread (v.put host) v.wire := by
  cases v with
  | int8 value => exact emits_write value.toUInt8
  | uint8 value => exact emits_write value
  | int16 value => exact emits_putInt host 2 _
  | uint16 value => exact emits_putInt host 2 _
  | int32 value => exact emits_putInt host 4 _
  | uint32 value => exact emits_putInt host 4 _
  | int64 value => exact emits_putInt host 8 _
  | uint64 value => exact emits_putInt host 8 _
  | float bits => exact emits_putInt host 4 _
  | double bits => exact emits_putInt host 8 _
  | string value => exact emits_putString host h

theorem emits_putAll {values : List Value} (h : ∀ v ∈ values, v.Fits) :
    Emits unread (putAll host values) (wire values) :=
  .forM fun v hv => emits_value host (h v hv)

-- ============================================================ extraction

/-- An extraction that fills an unsigned temporary and converts it. -/
private theorem consumes_converted {n x : Nat} {α : Type} {f : Nat → α}
    (hx : x < 256 ^ n) :
    Consumes unread (getInt host n >>= fun v => pure (f v)) (leBytes n x)
      (f x) :=
  (consumes_getInt_leBytes host hx).bind_pure

theorem consumes_getInt16 (value : Int16) :
    Consumes unread (getInt16 host) (leBytes 2 value.toUInt16.toNat)
      value := by
  have h := consumes_converted host (f := fun v => (UInt16.ofNat v).toInt16)
    (n := 2) value.toUInt16.toNat_lt
  refine h.of_eq rfl ?_
  rw [UInt16.ofNat_toNat, Int16.toInt16_toUInt16]

theorem consumes_getInt32 (value : Int32) :
    Consumes unread (getInt32 host) (leBytes 4 value.toUInt32.toNat)
      value := by
  have h := consumes_converted host (f := fun v => (UInt32.ofNat v).toInt32)
    (n := 4) value.toUInt32.toNat_lt
  refine h.of_eq rfl ?_
  rw [UInt32.ofNat_toNat, Int32.toInt32_toUInt32]

theorem consumes_getInt64 (value : Int64) :
    Consumes unread (getInt64 host) (leBytes 8 value.toUInt64.toNat)
      value := by
  have h := consumes_converted host (f := fun v => (UInt64.ofNat v).toInt64)
    (n := 8) value.toUInt64.toNat_lt
  refine h.of_eq rfl ?_
  rw [UInt64.ofNat_toNat, Int64.toInt64_toUInt64]

/-- Whoever names a value's type gets it back. -/
theorem consumes_value {v : Value} (h : v.Fits) :
    Consumes unread (v.type.get host) v.wire v := by
  cases v with
  | int8 value =>
      have hread := (consumes_read value.toUInt8).bind_pure (f := UInt8.toInt8)
      rw [Int8.toInt8_toUInt8] at hread
      exact hread.bind_pure
  | uint8 value => exact (consumes_read value).bind_pure
  | int16 value => exact (consumes_getInt16 host value).bind_pure
  | uint16 value => exact (consumes_getUInt16 host value).bind_pure
  | int32 value => exact (consumes_getInt32 host value).bind_pure
  | uint32 value => exact (consumes_getUInt32 host value).bind_pure
  | int64 value => exact (consumes_getInt64 host value).bind_pure
  | uint64 value => exact (consumes_getUInt64 host value).bind_pure
  | float bits => exact (consumes_getUInt32 host bits).bind_pure
  | double bits => exact (consumes_getUInt64 host bits).bind_pure
  | string value => exact (consumes_getString host h).bind_pure

theorem consumes_getAll {values : List Value} (h : ∀ v ∈ values, v.Fits) :
    Consumes unread (getAll host (values.map Value.type)) (wire values)
      values := by
  induction values with
  | nil => exact consumes_pure []
  | cons v vs ih =>
      have hv := h v (List.mem_cons_self ..)
      have hvs := ih fun w hw => h w (List.mem_cons_of_mem _ hw)
      exact (consumes_value host hv).bind hvs.bind_pure

-- ============================================================ round trip

/-- Values inserted on one host and extracted, as the same types in the
same order, on any: the same values, and what was written behind them
is left — from the buffer itself, once what lay in front has been read,
and from any buffer the bytes have been moved to. -/
theorem values_round_trip (writer reader : ByteOrder) {b : PacketBuffer}
    {before behind : List UInt8} {values : List Value}
    (hb : unread.holds b before) (hfit : ∀ v ∈ values, v.Fits)
    (hroom : before.length + (wire values).length + behind.length
      ≤ uint32Max) :
    ∃ b₁, (do putAll writer values; writeArray behind).run b = .ok ⟨⟩ b₁
      ∧ unread.holds b₁ (before ++ wire values ++ behind)
      ∧ (∃ b₂, (do
            let _ ← readArray before.length
            getAll reader (values.map Value.type)).run b₁ = .ok values b₂
          ∧ unread.holds b₂ behind)
      ∧ ∀ r, unread.holds r (wire values ++ behind) →
          ∃ r', (getAll reader (values.map Value.type)).run r = .ok values r'
            ∧ unread.holds r' behind := by
  have hcap : unread.cap = uint32Max := rfl
  have hput : Emits unread (do putAll writer values; writeArray behind) _ :=
    (emits_putAll writer hfit).seq (emits_writeArray behind)
  obtain ⟨b₁, hrun, hb₁⟩ := hput b before hb
    (by rw [List.length_append]; omega)
  rw [← List.append_assoc] at hb₁
  have hget := consumes_getAll reader hfit
  have hskip : Consumes unread (do
      let _ ← readArray before.length
      getAll reader (values.map Value.type)) _ values :=
    (consumes_readArray before).bind hget
  refine ⟨b₁, hrun, hb₁, hskip b₁ behind hb₁, ?_⟩
  intro r hr
  exact hget r behind hr

/-- A negative number, a string with a NUL in it and the largest double
but one, from a big-endian host to a little-endian one. -/
theorem values_round_trip_mixed :
    let values : List Value :=
      [.int16 (-2), .string [65, 0, 66], .double 0x7FEFFFFFFFFFFFFE]
    ∃ b₁, (do putAll .big values; writeArray [7]).run {} = .ok ⟨⟩ b₁
      ∧ unread.holds b₁ ([] ++ wire values ++ [7])
      ∧ (∃ b₂, (do
            let _ ← readArray 0
            getAll .little (values.map Value.type)).run b₁ = .ok values b₂
          ∧ unread.holds b₂ [7])
      ∧ ∀ r, unread.holds r (wire values ++ [7]) →
          ∃ r', (getAll .little (values.map Value.type)).run r = .ok values r'
            ∧ unread.holds r' [7] := by
  intro values
  have hempty : unread.holds {} [] := unread_empty
  refine values_round_trip .big .little hempty ?_ (by decide)
  intro v hv
  simp only [values, List.mem_cons, List.not_mem_nil, or_false] at hv
  rcases hv with rfl | rfl | rfl
  · trivial
  · show (3 : Nat) ≤ uint16Max
    decide
  · trivial

end PacketBuffer

end AWEnginePacket
