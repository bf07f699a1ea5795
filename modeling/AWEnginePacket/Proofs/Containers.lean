/-
Containers of fixed-width integers: which of them come back.

Both containers are inserted element by element, each in its own width,
and extracted as raw memory; the extractions confuse the number of
elements with the number of bytes. Into a vector the right bytes are
read, but it is resized to as many elements as it has bytes
(`vector_roundTrips_iff`). Into an array only as many bytes are read as
it has elements, and the rest stays in the buffer
(`array_roundTrips_iff`). At one byte an element there is nothing to
confuse.
-/
import AWEnginePacket.Model.Containers
import AWEnginePacket.Proofs.RoundTrip

namespace AWEnginePacket

open Endian (ByteOrder leBytes)
open Effect
open QueueCodec
open PacketBuffer (unread)

/-- What `put` inserts, `get` gives back as `a`: it takes exactly the
bytes of the insertion, from in front of whatever was written behind
them. -/
def RoundTrips {α : Type} (put : BufferM PUnit) (get : BufferM α) (a : α) :
    Prop :=
  ∃ out, out.length ≤ uint32Max ∧ Emits unread put out
    ∧ Consumes unread get out a

/-- What one buffer gives back otherwise does not come back. -/
theorem not_roundTrips {α : Type} {put : BufferM PUnit} {get : BufferM α}
    {a a' : α} {b b' : PacketBuffer} (hput : put.run {} = .ok ⟨⟩ b)
    (hget : get.run b = .ok a' b') (hne : a' ≠ a) :
    ¬ RoundTrips put get a := by
  rintro ⟨out, hroom, hemits, hout⟩
  obtain ⟨b₁, hrun, hb⟩ := hemits {} [] PacketBuffer.unread_empty
    (by rwa [List.length_nil, Nat.zero_add])
  rw [hput] at hrun
  cases hrun
  obtain ⟨b₂, hrun, -⟩ := hout b [] (by rwa [List.append_nil])
  rw [hget] at hrun
  injection hrun with heq
  exact hne heq

namespace PacketBuffer

variable {b : PacketBuffer} {l l' : List UInt8}

/-- A buffer has one list of unread bytes. -/
theorem unread_unique (h : unread.holds b l) (h' : unread.holds b l') :
    l = l' :=
  h.2.2.symm.trans h'.2.2

theorem appends_write (v : UInt8) : Appends unread (write v) [v] := by
  intro b l b' hb hrun
  unfold write at hrun
  rw [run_bind_of_ok (run_removeStartOffset hb), EStateM.run_bind,
    EStateM.run_get] at hrun
  simp only at hrun
  split at hrun
  · cases hrun
  · cases hrun
    apply unread_fresh
    simp only [List.length_append, List.length_singleton]
    omega

theorem appends_putInt (host : ByteOrder) (n x : Nat) :
    Appends unread (putInt host n x) (leBytes n x) := by
  have h : Appends unread ((leBytes n x).forM write)
      ((leBytes n x).flatMap fun v => [v]) := .forM fun v _ => appends_write v
  unfold putInt
  rw [Endian.store_htole]
  rwa [List.flatMap_singleton'] at h

end PacketBuffer

namespace IntType

variable (host : ByteOrder) (t : IntType)

-- ============================================================= elements

theorem sizeOf_pos : 0 < t.sizeOf := by
  cases t <;> decide

theorem toBits_lt (x : t.Elem) : t.toBits x < 256 ^ t.sizeOf := by
  cases t with
  | int8 => exact x.toUInt8.toNat_lt
  | uint8 => exact UInt8.toNat_lt x
  | int16 => exact x.toUInt16.toNat_lt
  | uint16 => exact UInt16.toNat_lt x
  | int32 => exact x.toUInt32.toNat_lt
  | uint32 => exact UInt32.toNat_lt x
  | int64 => exact x.toUInt64.toNat_lt
  | uint64 => exact UInt64.toNat_lt x

/-- A value is its bits. -/
theorem ofBits_toBits (x : t.Elem) : t.ofBits (t.toBits x) = x := by
  cases t with
  | int8 =>
      show (UInt8.ofNat x.toUInt8.toNat).toInt8 = x
      rw [UInt8.ofNat_toNat, Int8.toInt8_toUInt8]
  | uint8 => exact UInt8.ofNat_toNat
  | int16 =>
      show (UInt16.ofNat x.toUInt16.toNat).toInt16 = x
      rw [UInt16.ofNat_toNat, Int16.toInt16_toUInt16]
  | uint16 => exact UInt16.ofNat_toNat
  | int32 =>
      show (UInt32.ofNat x.toUInt32.toNat).toInt32 = x
      rw [UInt32.ofNat_toNat, Int32.toInt32_toUInt32]
  | uint32 => exact UInt32.ofNat_toNat
  | int64 =>
      show (UInt64.ofNat x.toUInt64.toNat).toInt64 = x
      rw [UInt64.ofNat_toNat, Int64.toInt64_toUInt64]
  | uint64 => exact UInt64.ofNat_toNat

theorem ofMemory_toMemory (x : t.Elem) :
    t.ofMemory host (t.toMemory host x) = x := by
  rw [ofMemory, toMemory, Endian.load_store host (t.toBits_lt x),
    ofBits_toBits]

@[simp] theorem toMemory_length (x : t.Elem) :
    (t.toMemory host x).length = t.sizeOf := by
  rw [toMemory, Endian.store_length]

/-- The memory of elements in a row. -/
theorem length_flatMap_toMemory (xs : List t.Elem) :
    (xs.flatMap (t.toMemory host)).length = xs.length * t.sizeOf := by
  induction xs with
  | nil => simp
  | cons x xs ih =>
      rw [List.flatMap_cons, List.length_append, ih, toMemory_length,
        List.length_cons]
      ring

/-- Elements that lie in a row are found there. -/
theorem element_flatMap_toMemory {xs : List t.Elem} {i : Nat}
    (h : i < xs.length) :
    t.element host (xs.flatMap (t.toMemory host)) i = xs[i] := by
  induction xs generalizing i with
  | nil => exact absurd h (Nat.not_lt_zero i)
  | cons x xs ih =>
      rw [List.flatMap_cons]
      cases i with
      | zero =>
          rw [element, Nat.zero_mul, List.drop_zero,
            List.take_left' (t.toMemory_length host x), ofMemory_toMemory]
          rfl
      | succ i =>
          have hdrop : (i + 1) * t.sizeOf
              = (t.toMemory host x).length + i * t.sizeOf := by
            rw [toMemory_length]
            ring
          rw [element, hdrop, List.drop_length_add_append]
          exact ih (Nat.lt_of_succ_lt_succ h)

theorem elements_length (memory : List UInt8) :
    (t.elements host memory).length = memory.length / t.sizeOf := by
  rw [elements, List.length_map, List.length_range]

theorem elements_flatMap_toMemory (xs : List t.Elem) :
    t.elements host (xs.flatMap (t.toMemory host)) = xs := by
  have hlen : (t.elements host (xs.flatMap (t.toMemory host))).length
      = xs.length := by
    rw [elements_length, length_flatMap_toMemory,
      Nat.mul_div_cancel _ t.sizeOf_pos]
  apply List.ext_getElem hlen
  intro i _ hi
  simp only [elements, List.getElem_map, List.getElem_range]
  exact t.element_flatMap_toMemory host hi

-- ============================================================ insertion

/-- The bytes of an element in a buffer. -/
def wire (x : t.Elem) : List UInt8 := leBytes t.sizeOf (t.toBits x)

/-- Every width has the same insertion loop, a single byte too. -/
theorem put_eq (x : t.Elem) :
    t.put host x = PacketBuffer.putInt host t.sizeOf (t.toBits x) := by
  have hbyte (v : UInt8) :
      PacketBuffer.write v = PacketBuffer.putInt host 1 v.toNat := by
    unfold PacketBuffer.putInt
    rw [Endian.store_htole]
    show _ = PacketBuffer.write (UInt8.ofNat v.toNat)
      >>= fun _ => pure PUnit.unit
    rw [UInt8.ofNat_toNat, bind_pure_unit]
  cases t with
  | int8 => exact hbyte x.toUInt8
  | uint8 => exact hbyte x
  | int16 => rfl
  | uint16 => rfl
  | int32 => rfl
  | uint32 => rfl
  | int64 => rfl
  | uint64 => rfl

theorem emits_put (x : t.Elem) : Emits unread (t.put host x) (t.wire x) := by
  rw [put_eq]
  exact PacketBuffer.emits_putInt host _ _

theorem appends_put (x : t.Elem) :
    Appends unread (t.put host x) (t.wire x) := by
  rw [put_eq]
  exact PacketBuffer.appends_putInt host _ _

/-- A single byte is its own memory. -/
theorem wire_eq_toMemory (h : t.sizeOf = 1) (x : t.Elem) :
    t.wire x = t.toMemory host x := by
  rw [wire, toMemory, h, Endian.store_one]

/-- The bytes of elements one behind the other. -/
theorem length_flatMap_wire (xs : List t.Elem) :
    (xs.flatMap t.wire).length = xs.length * t.sizeOf := by
  rw [List.length_flatMap]
  simp [wire]

theorem emits_elements (xs : List t.Elem) :
    Emits unread (xs.forM (t.put host)) (xs.flatMap t.wire) :=
  .forM fun x _ => t.emits_put host x

theorem appends_elements (xs : List t.Elem) :
    Appends unread (xs.forM (t.put host)) (xs.flatMap t.wire) :=
  .forM fun x _ => t.appends_put host x

-- ============================================================== vectors

/-- The bytes of a vector: how many elements, and the elements. -/
def vectorWire (value : List t.Elem) : List UInt8 :=
  leBytes 2 value.length ++ value.flatMap t.wire

variable {t} {value : List t.Elem}

theorem length_vectorWire (h : value.length ≤ uint16Max) :
    (t.vectorWire value).length ≤ uint32Max := by
  have hsize : t.sizeOf ≤ 8 := by cases t <;> decide
  have hmul : value.length * t.sizeOf ≤ uint16Max * 8 :=
    Nat.mul_le_mul h hsize
  have hmax : uint16Max * 8 + 2 ≤ uint32Max := by decide
  rw [vectorWire, List.length_append, Endian.leBytes_length,
    length_flatMap_wire]
  omega

theorem emits_putVector (h : value.length ≤ uint16Max) :
    Emits unread (t.putVector host value) (t.vectorWire value) := by
  unfold putVector PacketBuffer.putVector
  rw [if_neg (Nat.not_lt_of_le h)]
  refine Emits.seq ?_ (t.emits_elements host value)
  show Emits unread
    (PacketBuffer.putInt host 2 (UInt16.ofNat value.length).toNat) _
  rw [PacketBuffer.toNat_length h]
  exact PacketBuffer.emits_putInt host 2 value.length

theorem appends_putVector (h : value.length ≤ uint16Max) :
    Appends unread (t.putVector host value) (t.vectorWire value) := by
  unfold putVector PacketBuffer.putVector
  rw [if_neg (Nat.not_lt_of_le h)]
  refine Appends.seq ?_ (t.appends_elements host value)
  show Appends unread
    (PacketBuffer.putInt host 2 (UInt16.ofNat value.length).toNat) _
  rw [PacketBuffer.toNat_length h]
  exact PacketBuffer.appends_putInt host 2 value.length

/-- The elements' memory after an extraction: the bytes read, and behind
them what the resized vector has left. -/
def resized (host : ByteOrder) (value old : List t.Elem) : List UInt8 :=
  let byteSize := value.length * t.sizeOf
  let memory := old.flatMap (t.toMemory host)
  value.flatMap t.wire
    ++ (memory.take (byteSize * t.sizeOf)
      ++ List.replicate (byteSize * t.sizeOf - memory.length) 0).drop byteSize

/-- It is that of as many elements as there are bytes. -/
theorem length_resized (old : List t.Elem) :
    (resized host value old).length
      = value.length * t.sizeOf * t.sizeOf := by
  have hle : value.length * t.sizeOf
      ≤ value.length * t.sizeOf * t.sizeOf :=
    Nat.le_mul_of_pos_right _ t.sizeOf_pos
  simp only [resized, List.length_append, List.length_drop,
    List.length_take, List.length_replicate, length_flatMap_wire]
  omega

/-- The extraction takes the right bytes, into too many elements. -/
theorem consumes_getVector (old : List t.Elem)
    (h : value.length ≤ uint16Max) :
    Consumes unread (t.getVector host old) (t.vectorWire value)
      (t.elements host (resized host value old)) := by
  have hlength := PacketBuffer.consumes_getUInt16 host
    (UInt16.ofNat value.length)
  rw [PacketBuffer.toNat_length h] at hlength
  have hbytes := length_flatMap_wire t value
  have hfits := length_vectorWire h
  rw [vectorWire, List.length_append, hbytes] at hfits
  have hsize : (UInt32.ofNat (value.length * t.sizeOf)).toNat
      = (value.flatMap t.wire).length := by
    have hmax : uint32Max = 4294967295 := rfl
    rw [UInt32.toNat_ofNat', hbytes]
    omega
  unfold getVector PacketBuffer.getVector
  refine Consumes.bind_pure (hlength.bind ?_)
  simp only [PacketBuffer.toNat_length h]
  rw [hsize]
  refine (PacketBuffer.consumes_readArray _).bind_nil ?_
  rw [if_neg (not_not_intro hbytes.symm)]
  exact consumes_pure _

variable (wr rd : ByteOrder)

/-- A vector comes back, from any host to any other and into any vector,
exactly if its elements are single bytes or there are none. -/
theorem vector_roundTrips_iff (old : List t.Elem)
    (h : value.length ≤ uint16Max) :
    RoundTrips (t.putVector wr value) (t.getVector rd old) value
      ↔ t.sizeOf = 1 ∨ value = [] := by
  have hget := consumes_getVector rd old h
  constructor
  · rintro ⟨out, hroom, hput, hout⟩
    -- what was inserted is the wire, and what is extracted too long
    obtain ⟨b, hb, hb'⟩ := hput.of_appends (appends_putVector wr h)
      PacketBuffer.unread_empty hroom
    obtain rfl := PacketBuffer.unread_unique hb hb'
    have heq := congrArg List.length (hout.unique hget hb)
    rw [elements_length, length_resized,
      Nat.mul_div_cancel _ t.sizeOf_pos] at heq
    rcases Nat.eq_zero_or_pos value.length with hzero | hpos
    · exact .inr (List.length_eq_zero_iff.mp hzero)
    · refine .inl (Nat.eq_of_mul_eq_mul_left hpos ?_)
      omega
  · intro hone
    refine ⟨t.vectorWire value, length_vectorWire h, emits_putVector wr h,
      hget.of_eq rfl ?_⟩
    rcases hone with hone | rfl
    · have hmemory : resized rd value old
          = value.flatMap (t.toMemory rd) := by
        have hlen : (value.length * t.sizeOf) * t.sizeOf
            = value.length * t.sizeOf := by
          rw [hone, Nat.mul_one]
        rw [resized, hlen, List.drop_eq_nil_of_le, List.append_nil]
        · simp only [funext (t.wire_eq_toMemory rd hone)]
        · rw [List.length_append, List.length_take, List.length_replicate]
          omega
      rw [hmemory, elements_flatMap_toMemory]
    · apply List.length_eq_zero_iff.mp
      rw [elements_length, length_resized, List.length_nil, Nat.zero_mul,
        Nat.zero_mul, Nat.zero_div]

/-- A vector of one byte an element: the elements are characters. -/
theorem vector_roundTrips_bytes :
    RoundTrips (putVector .big .int8 [-1, 65])
      (getVector .little .int8 []) [-1, 65] := by
  have hlen : ([-1, 65] : List int8.Elem).length ≤ uint16Max := by decide
  exact (vector_roundTrips_iff .big .little [] hlen).mpr (.inl rfl)

/-- One element of two bytes is extracted as two. -/
theorem vector_two_bytes_doubled :
    (putVector .little .uint16 [7]).run {} = .ok ⟨⟩ ⟨[1, 0, 7, 0], 0⟩
      ∧ (getVector .little .uint16 []).run ⟨[1, 0, 7, 0], 0⟩
        = .ok [7, 0] ⟨[1, 0, 7, 0], 4⟩
      ∧ ¬ RoundTrips (putVector .little .uint16 [7])
        (getVector .little .uint16 []) [7] := by
  have hput : (putVector .little .uint16 [7]).run {}
      = .ok ⟨⟩ ⟨[1, 0, 7, 0], 0⟩ := rfl
  have hget : (getVector .little .uint16 []).run ⟨[1, 0, 7, 0], 0⟩
      = .ok [7, 0] ⟨[1, 0, 7, 0], 4⟩ := rfl
  exact ⟨hput, hget, not_roundTrips hput hget (by decide)⟩

-- =============================================================== arrays

variable {n : Nat}

/-- The extraction takes as many bytes as there are elements. -/
theorem consumes_getArray {bytes : List UInt8} (old : Vector t.Elem n)
    (hlen : bytes.length = n) (hn : n ≤ uint32Max) :
    Consumes unread (t.getArray rd old) bytes
      (Vector.ofFn fun i => t.element rd
        (bytes ++ (old.toList.flatMap (t.toMemory rd)).drop n) i) := by
  have hsize : (UInt32.ofNat n).toNat = bytes.length := by
    have hmax : uint32Max = 4294967295 := rfl
    rw [UInt32.toNat_ofNat', hlen]
    omega
  unfold getArray PacketBuffer.getArray
  refine Consumes.bind_pure ?_
  rw [hsize]
  refine (PacketBuffer.consumes_readArray bytes).bind_nil ?_
  rw [if_neg (not_not_intro hlen.symm)]
  exact consumes_pure _

/-- An extraction that returned has left all but the first `n` bytes. -/
theorem of_run_getArray {b b' : PacketBuffer} {l : List UInt8}
    {old value : Vector t.Elem n} (hb : unread.holds b l)
    (h : (t.getArray rd old).run b = .ok value b') :
    n ≤ uint32Max ∧ unread.holds b' (l.drop n) := by
  obtain ⟨b₁, hrun, hb₁⟩ :=
    PacketBuffer.run_readArray (UInt32.ofNat n).toNat hb
  unfold getArray PacketBuffer.getArray at h
  obtain ⟨memory, b₂, h, hpure⟩ := of_run_bind_ok h
  cases hpure
  rw [run_bind_of_ok hrun] at h
  by_cases hlen : n = (l.take (UInt32.ofNat n).toNat).length
  · rw [if_neg (not_not_intro hlen)] at h
    cases h
    rw [List.length_take] at hlen
    have hlt := (UInt32.ofNat n).toNat_lt
    have hmax : uint32Max = 4294967295 := rfl
    have hsize : (UInt32.ofNat n).toNat = n % 2 ^ 32 := UInt32.toNat_ofNat'
    have heq : (UInt32.ofNat n).toNat = n := by omega
    rw [heq] at hb₁
    exact ⟨by omega, hb₁⟩
  · rw [if_pos hlen] at h
    cases h

/-- An array comes back, from any host to any other and into any array,
exactly if it has no elements or they are single bytes, no more than fit
into a buffer. -/
theorem array_roundTrips_iff (value old : Vector t.Elem n) :
    RoundTrips (t.putArray wr value) (t.getArray rd old) value
      ↔ n = 0 ∨ (t.sizeOf = 1 ∧ n ≤ uint32Max) := by
  have hlen := length_flatMap_wire t value.toList
  rw [Vector.length_toList] at hlen
  constructor
  · rintro ⟨out, hroom, hput, hout⟩
    obtain ⟨b, hb, hb'⟩ := hput.of_appends
      (t.appends_elements wr value.toList) PacketBuffer.unread_empty hroom
    obtain rfl := PacketBuffer.unread_unique hb hb'
    obtain ⟨b', hrun, hend⟩ := hout b [] (by rwa [List.append_nil])
    obtain ⟨hn, hrest⟩ := of_run_getArray rd hb hrun
    -- nothing may be left of the insertion
    have hnil := PacketBuffer.unread_unique hrest hend
    rw [List.drop_eq_nil_iff, hlen] at hnil
    rcases Nat.eq_zero_or_pos n with hzero | hpos
    · exact .inl hzero
    · have hone : t.sizeOf ≤ 1 := by
        apply Nat.le_of_mul_le_mul_left _ hpos
        rwa [Nat.mul_one]
      have hpos := t.sizeOf_pos
      exact .inr ⟨by omega, hn⟩
  · intro h
    have hbytes : n * t.sizeOf = n := by
      rcases h with rfl | ⟨hone, -⟩
      · rw [Nat.zero_mul]
      · rw [hone, Nat.mul_one]
    have hn : n ≤ uint32Max := by
      rcases h with rfl | ⟨-, hn⟩
      · exact Nat.zero_le _
      · exact hn
    rw [hbytes] at hlen
    refine ⟨value.toList.flatMap t.wire, by rwa [hlen],
      t.emits_elements wr value.toList,
      (consumes_getArray rd old hlen hn).of_eq rfl ?_⟩
    apply Vector.ext
    intro i hi
    have hone : t.sizeOf = 1 := by
      rcases h with rfl | ⟨hone, -⟩
      · exact absurd hi (Nat.not_lt_zero i)
      · exact hone
    rw [Vector.getElem_ofFn, List.drop_eq_nil_of_le, List.append_nil,
      funext (t.wire_eq_toMemory rd hone), element_flatMap_toMemory]
    · exact Vector.getElem_toList ..
    · rwa [Vector.length_toList]
    · rw [length_flatMap_toMemory, Vector.length_toList, hbytes]

/-- Of one element of two bytes one byte is left behind. -/
theorem array_two_bytes_left :
    (putArray .little .uint16 #v[515]).run {} = .ok ⟨⟩ ⟨[3, 2], 0⟩
      ∧ (getArray .little .uint16 #v[0]).run ⟨[3, 2], 0⟩
        = .ok #v[3] ⟨[3, 2], 1⟩
      ∧ ¬ RoundTrips (putArray .little .uint16 #v[515])
        (getArray .little .uint16 #v[0]) #v[515] := by
  have hput : (putArray .little .uint16 #v[515]).run {}
      = .ok ⟨⟩ ⟨[3, 2], 0⟩ := rfl
  have hget : (getArray .little .uint16 #v[0]).run ⟨[3, 2], 0⟩
      = .ok #v[3] ⟨[3, 2], 1⟩ := rfl
  refine ⟨hput, hget, not_roundTrips hput hget fun heq => ?_⟩
  have hne : (3 : UInt16) ≠ 515 := by decide
  exact hne (congrArg (fun v : Vector UInt16 1 => v[0]) heq)

end IntType

end AWEnginePacket
