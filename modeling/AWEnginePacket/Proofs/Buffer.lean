/-
`PacketBuffer` as a queue of bytes, and what each codec writes and
reads.

`unread` views a buffer as the bytes between its start offset and its
end. It holds of every buffer whose offset has not passed the end, and
as long as it does the lazy offset is invisible: a writer appends, a
reader takes from the front. Every operator then has one line of
specification, `Emits` or `Consumes`, and a packet's is the sequence of
its fields'. The two hosts of a round trip need not have the same byte
order: what lies in the buffer is little-endian on both.
-/
import AWEnginePacket.Lib.QueueCodec
import AWEnginePacket.Model.Packets

namespace AWEnginePacket

open Endian (ByteOrder leBytes ofLe)
open Effect
open QueueCodec

namespace PacketBuffer

/-- The unread bytes of a buffer, with room for 2³² − 1. -/
def unread : View PacketBuffer UInt8 where
  holds b l := b.mStartOffset.toNat ≤ b.mData.length
    ∧ b.mData.length ≤ uint32Max
    ∧ b.mData.drop b.mStartOffset.toNat = l
  cap := uint32Max

variable {b : PacketBuffer} {l : List UInt8}

/-- The sum of an offset and a distance, as long as it has 32 bits. -/
theorem toNat_offset_add {k : UInt32}
    (h : b.mStartOffset.toNat + k.toNat ≤ uint32Max) :
    (b.mStartOffset + k).toNat = b.mStartOffset.toNat + k.toNat := by
  have hmax : uint32Max = 4294967295 := rfl
  rw [UInt32.toNat_add]
  omega

/-- The offset behind a byte that is in the data. -/
theorem toNat_offset_add_one
    (h : b.mStartOffset.toNat + 1 ≤ uint32Max) :
    (b.mStartOffset + 1).toNat = b.mStartOffset.toNat + 1 :=
  toNat_offset_add h

/-- A length that passes for a `uint16_t`. -/
theorem toNat_length {n : Nat} (h : n ≤ uint16Max) :
    (UInt16.ofNat n).toNat = n := by
  have hmax : uint16Max = 65535 := rfl
  rw [UInt16.toNat_ofNat']
  omega

/-- A new buffer holds nothing. -/
theorem unread_empty : unread.holds {} [] :=
  ⟨Nat.le_refl 0, Nat.zero_le _, rfl⟩

/-- A buffer with nothing read holds its data. -/
theorem unread_fresh (hl : l.length ≤ uint32Max) : unread.holds ⟨l, 0⟩ l :=
  ⟨Nat.zero_le _, hl, rfl⟩

/-- `size()` counts the unread bytes. -/
theorem size_of_unread (h : unread.holds b l) : b.size.toNat = l.length := by
  obtain ⟨hoff, hlen, hdrop⟩ := h
  have hmax : uint32Max = 4294967295 := rfl
  have hl : l.length = b.mData.length - b.mStartOffset.toNat := by
    rw [← hdrop, List.length_drop]
  rw [size, UInt32.toNat_sub_of_le, UInt32.toNat_ofNat', hl]
  · omega
  · rw [UInt32.le_iff_toNat_le, UInt32.toNat_ofNat']
    omega

/-- `empty()` says that none is left. -/
theorem empty_of_unread (h : unread.holds b l) : b.empty = l.isEmpty := by
  have hsize := size_of_unread h
  rw [Bool.eq_iff_iff, List.isEmpty_iff, empty, decide_eq_true_iff,
    UInt32.le_iff_toNat_le, hsize, UInt32.toNat_zero, Nat.le_zero,
    List.length_eq_zero_iff]

/-- `data()` and `size()` show the unread bytes. -/
theorem bytes_of_unread (h : unread.holds b l) : b.bytes = l := by
  have hsize := size_of_unread h
  obtain ⟨hoff, hlen, hdrop⟩ := h
  have hl : l.length = b.mData.length - b.mStartOffset.toNat := by
    rw [← hdrop, List.length_drop]
  apply List.ext_getElem
  · rw [bytes, bytesFrom, List.length_map, List.length_range, hsize]
  · intro i hi hi'
    simp only [bytes, bytesFrom, List.getElem_map, List.getElem_range,
      byteAt, ← hdrop, List.getElem_drop]
    rw [List.getD_eq_getElem?_getD, List.getElem?_eq_getElem (by omega)]
    rfl

/-- Erasing what has been read leaves the unread bytes alone. -/
theorem run_removeStartOffset (h : unread.holds b l) :
    removeStartOffset.run b = .ok ⟨⟩ ⟨l, 0⟩ := by
  obtain ⟨hoff, -, hdrop⟩ := h
  unfold removeStartOffset
  rw [EStateM.run_bind, EStateM.run_get]
  simp only
  by_cases hzero : b.mStartOffset = 0
  · rw [if_neg (by simpa using hzero), ← hdrop, hzero]
    show EStateM.Result.ok PUnit.unit b = .ok ⟨⟩ ⟨b.mData, 0⟩
    rw [← hzero]
  · rw [if_pos hzero, if_neg (by omega), hdrop]
    rfl

-- =============================================================== bytes

/-- A byte goes to the end. -/
theorem emits_write (v : UInt8) : Emits unread (write v) [v] := by
  intro b l hb hroom
  have hmax : unread.cap = uint32Max := rfl
  have hlen : (l ++ [v]).length ≤ uint32Max := by
    rw [List.length_append]
    omega
  refine ⟨⟨l ++ [v], 0⟩, ?_, unread_fresh hlen⟩
  unfold write
  rw [run_bind_of_ok (run_removeStartOffset hb), EStateM.run_bind,
    EStateM.run_get]
  simp only
  rw [if_neg (by simp only [List.length_singleton] at hroom; omega)]
  rfl

theorem emits_writeArray (val : List UInt8) :
    Emits unread (writeArray val) val := by
  intro b l hb hroom
  have hmax : unread.cap = uint32Max := rfl
  have hlen : (l ++ val).length ≤ uint32Max := by
    rw [List.length_append]
    omega
  refine ⟨⟨l ++ val, 0⟩, ?_, unread_fresh hlen⟩
  unfold writeArray
  rw [run_bind_of_ok (run_removeStartOffset hb), EStateM.run_bind,
    EStateM.run_get]
  simp only
  rw [if_neg (by omega)]
  rfl

/-- One byte in front of the queue, and the queue once it is read. -/
theorem unread_cons {v : UInt8} (h : unread.holds b (v :: l)) :
    b.mData[b.mStartOffset.toNat]? = some v
      ∧ unread.holds { b with mStartOffset := b.mStartOffset + 1 } l := by
  obtain ⟨hoff, hlen, hdrop⟩ := h
  have hlt : b.mStartOffset.toNat < b.mData.length := by
    have := congrArg List.length hdrop
    rw [List.length_drop, List.length_cons] at this
    omega
  rw [List.drop_eq_getElem_cons hlt, List.cons.injEq] at hdrop
  have hadd := toNat_offset_add_one (b := b) (by omega)
  refine ⟨?_, ?_, hlen, ?_⟩
  · rw [List.getElem?_eq_getElem hlt, hdrop.1]
  · simp only [hadd]
    exact hlt
  · simp only [hadd]
    exact hdrop.2

/-- And comes from the front. -/
theorem consumes_read (v : UInt8) : Consumes unread read [v] v := by
  intro b l hb
  obtain ⟨hget, hb'⟩ := unread_cons hb
  refine ⟨_, ?_, hb'⟩
  unfold read
  rw [EStateM.run_bind, EStateM.run_get]
  simp only [hget]
  rfl

theorem consumes_tryRead (v : UInt8) :
    Consumes unread tryRead [v] (some v) := by
  intro b l hb
  obtain ⟨hget, hb'⟩ := unread_cons hb
  refine ⟨_, ?_, hb'⟩
  unfold tryRead
  rw [EStateM.run_bind, EStateM.run_get]
  simp only [hget]
  rfl

/-- So do as many as are asked for, where there are as many. -/
theorem consumes_readArray (inp : List UInt8) :
    Consumes unread (readArray inp.length) inp inp := by
  induction inp with
  | nil => exact consumes_pure []
  | cons v vs ih =>
      exact (consumes_tryRead v).bind (ih.bind_pure)

theorem consumes_readInto (inp : List UInt8) :
    Consumes unread (readInto inp.length) inp inp := by
  induction inp with
  | nil => exact consumes_pure []
  | cons v vs ih => exact (consumes_read v).bind ih.bind_pure

/-- Nothing is left: there is no byte at the offset. -/
theorem getElem?_of_unread_nil (h : unread.holds b []) :
    b.mData[b.mStartOffset.toNat]? = none := by
  obtain ⟨-, -, hdrop⟩ := h
  rw [List.drop_eq_nil_iff] at hdrop
  rw [List.getElem?_eq_none_iff]
  exact hdrop

/-- A byte that is there. -/
theorem run_read (h : b.mStartOffset.toNat < b.mData.length) :
    read.run b = .ok (b.mData[b.mStartOffset.toNat])
      { b with mStartOffset := b.mStartOffset + 1 } := by
  unfold read
  rw [EStateM.run_bind, EStateM.run_get]
  simp only [List.getElem?_eq_getElem h]
  rfl

theorem run_tryRead (h : b.mStartOffset.toNat < b.mData.length) :
    tryRead.run b = .ok (some b.mData[b.mStartOffset.toNat])
      { b with mStartOffset := b.mStartOffset + 1 } := by
  unfold tryRead
  rw [EStateM.run_bind, EStateM.run_get]
  simp only [List.getElem?_eq_getElem h]
  rfl

/-- At the end of the data, or behind it. -/
theorem run_read_end (h : b.mData[b.mStartOffset.toNat]? = none) :
    read.run b
      = .error (.runtimeError "Attempt to read outside of the buffer") b := by
  unfold read
  rw [EStateM.run_bind, EStateM.run_get]
  simp only [h]
  rfl

/-- Where nothing is left, `Read` throws, and the other one tells. -/
theorem run_read_nil (h : unread.holds b []) :
    read.run b
      = .error (.runtimeError "Attempt to read outside of the buffer") b :=
  run_read_end (getElem?_of_unread_nil h)

theorem run_tryRead_nil (h : unread.holds b []) :
    tryRead.run b = .ok none b := by
  unfold tryRead
  rw [EStateM.run_bind, EStateM.run_get]
  simp only [getElem?_of_unread_nil h]
  rfl

/-- `ReadArray` takes what it asked for, or what there is. -/
theorem run_readArray (n : Nat) (h : unread.holds b l) :
    ∃ b', (readArray n).run b = .ok (l.take n) b'
      ∧ unread.holds b' (l.drop n) := by
  induction n generalizing b l with
  | zero => exact ⟨b, rfl, h⟩
  | succ n ih =>
      rw [readArray]
      cases l with
      | nil =>
          refine ⟨b, ?_, h⟩
          rw [run_bind_of_ok (run_tryRead_nil h)]
          rfl
      | cons v l =>
          obtain ⟨b₁, hrun, hb₁⟩ := consumes_tryRead v b l h
          obtain ⟨b₂, hrun', hb₂⟩ := ih hb₁
          refine ⟨b₂, ?_, hb₂⟩
          rw [run_bind_of_ok hrun]
          simp only
          rw [run_bind_of_ok hrun']
          rfl

/-- A loop that writes bytes one by one appends them. -/
theorem emits_forM_write (bs : List UInt8) :
    Emits unread (bs.forM write) bs := by
  have h : Emits unread (bs.forM write) (bs.flatMap fun v => [v]) :=
    .forM fun v _ => emits_write v
  rwa [List.flatMap_singleton'] at h

-- ============================================================= integers

variable (host : ByteOrder)

/-- Whatever the host, an integer is written little-endian, -/
theorem emits_putInt (n x : Nat) :
    Emits unread (putInt host n x) (leBytes n x) := by
  unfold putInt
  rw [Endian.store_htole]
  exact emits_forM_write (leBytes n x)

/-- and read so. -/
theorem consumes_getInt (inp : List UInt8) :
    Consumes unread (getInt host inp.length) inp (ofLe inp) := by
  rw [← Endian.letoh_load host inp]
  exact (consumes_readInto inp).bind_pure

/-- What one host wrote, another reads. -/
theorem consumes_getInt_leBytes {n x : Nat} (hx : x < 256 ^ n) :
    Consumes unread (getInt host n) (leBytes n x) x := by
  have h := consumes_getInt host (leBytes n x)
  rwa [Endian.leBytes_length, Endian.ofLe_leBytes_of_lt hx] at h

theorem consumes_getUInt16 (value : UInt16) :
    Consumes unread (getUInt16 host) (leBytes 2 value.toNat) value := by
  have h : Consumes unread (getInt host 2) (leBytes 2 value.toNat) _ :=
    consumes_getInt_leBytes host value.toNat_lt
  exact h.bind_pure.of_eq rfl value.ofNat_toNat

theorem consumes_getUInt32 (value : UInt32) :
    Consumes unread (getUInt32 host) (leBytes 4 value.toNat) value := by
  have h : Consumes unread (getInt host 4) (leBytes 4 value.toNat) _ :=
    consumes_getInt_leBytes host value.toNat_lt
  exact h.bind_pure.of_eq rfl value.ofNat_toNat

theorem consumes_getUInt64 (value : UInt64) :
    Consumes unread (getUInt64 host) (leBytes 8 value.toNat) value := by
  have h : Consumes unread (getInt host 8) (leBytes 8 value.toNat) _ :=
    consumes_getInt_leBytes host value.toNat_lt
  exact h.bind_pure.of_eq rfl value.ofNat_toNat

-- ============================================================== strings

/-- The bytes of a string in a packet: its length in two bytes, then its
characters. -/
def stringBytes (value : List UInt8) : List UInt8 :=
  leBytes 2 value.length ++ value

/-- A string goes behind its size, and is found there again. -/
theorem emits_putString {value : List UInt8}
    (h : value.length ≤ uint16Max) :
    Emits unread (putString host value) (stringBytes value) := by
  unfold putString
  rw [if_neg (Nat.not_lt_of_le h)]
  refine Emits.seq ?_ (emits_forM_write value)
  show Emits unread (putInt host 2 (UInt16.ofNat value.length).toNat) _
  rw [toNat_length h]
  exact emits_putInt host 2 value.length

/-- A string that is too long is not written. -/
theorem run_putString_long {value : List UInt8}
    (h : uint16Max < value.length) (b : PacketBuffer) :
    (putString host value).run b
      = .error (.runtimeError "String is too long (exceeds uint16 limit)")
        b := by
  unfold putString
  rw [if_pos h]
  rfl

theorem consumes_getString {value : List UInt8}
    (h : value.length ≤ uint16Max) :
    Consumes unread (getString host) (stringBytes value) value := by
  have hlength := consumes_getUInt16 host (UInt16.ofNat value.length)
  rw [toNat_length h] at hlength
  unfold getString
  refine hlength.bind ?_
  rw [toNat_length h]
  refine (consumes_readArray value).bind_nil ?_
  rw [if_neg (not_not_intro rfl)]
  exact consumes_pure value

-- ============================================== more bytes than offsets

variable {α β : Type} {P : α → Prop} {Q : β → Prop} {a : α}

/-- In a buffer longer than any offset it returns, and `P` holds of what
it returns. -/
def Returns (P : α → Prop) (m : BufferM α) : Prop :=
  ∀ b : PacketBuffer, uint32Max < b.mData.length →
    ∃ a b', m.run b = .ok a b' ∧ b'.mData = b.mData ∧ P a

theorem returns_pure (ha : P a) : Returns P (pure a) :=
  fun b _ => ⟨a, b, rfl, rfl, ha⟩

/-- No byte is missing in between, for the data stay as long. -/
theorem Returns.bind {m : BufferM α} {k : α → BufferM β}
    (hm : Returns P m) (hk : ∀ a, P a → Returns Q (k a)) :
    Returns Q (m >>= k) := by
  intro b hlong
  obtain ⟨a, b₁, hrun, hdata, ha⟩ := hm b hlong
  obtain ⟨x, b₂, hrun', hdata', hx⟩ := hk a ha b₁ (by rw [hdata]; exact hlong)
  refine ⟨x, b₂, ?_, hdata'.trans hdata, hx⟩
  rw [run_bind_of_ok hrun, hrun']

theorem Returns.map {m : BufferM α} (hm : Returns P m) (f : α → β) :
    Returns (fun _ => True) (m >>= fun a => pure (f a)) :=
  hm.bind fun _ _ => returns_pure trivial

/-- Every offset is that of a byte. -/
theorem offset_lt_of_long (hlong : uint32Max < b.mData.length) :
    b.mStartOffset.toNat < b.mData.length := by
  have hlt := b.mStartOffset.toNat_lt
  have hmax : uint32Max = 4294967295 := rfl
  omega

theorem returns_read : Returns (fun _ => True) read :=
  fun _ hlong => ⟨_, _, run_read (offset_lt_of_long hlong), rfl, trivial⟩

end PacketBuffer

end AWEnginePacket
