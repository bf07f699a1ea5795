/-
The invariant of a `PacketBuffer`: the offset has not passed the end,
and the data fits 32 bits.

`Sound` is nowhere written down in the class, and everything in it
relies on it: `size()` is an unsigned difference, and the erase in front
of every write takes the offset for a position in the vector. Reads test
the end, so they keep it; writes restore the offset to 0. Two calls take
the caller's word instead: `Skip` adds to the offset without looking,
and `resize` moves the end without looking at the offset. `Within` says
when their arguments are good, and with that every call of every run is
(`sound_run`).

# Assembly

`Maintains Sound Defined m` is the one form of the argument: from a
sound buffer `m` leaves a sound one, whether it returns or throws, and
what it throws is an exception of the code and no undefined behaviour.
It is proved for the primitives and composes, so a typed operator is the
sequence of its reads and writes.
-/
import AWEnginePacket.Lib.Lts
import AWEnginePacket.Model.BufferCalls
import AWEnginePacket.Proofs.Buffer

namespace AWEnginePacket

open Endian (ByteOrder)
open Effect
open QueueCodec

/-- An exception the code throws itself. -/
def Fault.Defined : Fault → Prop
  | .runtimeError _ => True
  | .undefined _ => False

namespace PacketBuffer

-- ========================================================= the invariant

/-- The offset lies in the data, which fits 32 bits. -/
structure Sound (b : PacketBuffer) : Prop where
  offset : b.mStartOffset.toNat ≤ b.mData.length
  length : b.mData.length ≤ uint32Max

/-- A new buffer is sound. -/
theorem sound_empty : Sound {} := ⟨Nat.le_refl 0, Nat.zero_le _⟩

/-- A sound buffer is a queue of the bytes behind its offset. -/
theorem Sound.unread {b : PacketBuffer} (h : Sound b) :
    unread.holds b (b.mData.drop b.mStartOffset.toNat) :=
  ⟨h.offset, h.length, rfl⟩

/-- A method that keeps the invariant on both exits. -/
abbrev Safe {α : Type} (m : BufferM α) : Prop :=
  Maintains Sound Fault.Defined m

/-- The offset may move over a byte that is there. -/
theorem Sound.advance {b : PacketBuffer} {v : UInt8} (h : Sound b)
    (hv : b.mData[b.mStartOffset.toNat]? = some v) :
    Sound { b with mStartOffset := b.mStartOffset + 1 } := by
  have hmax : uint32Max = 4294967295 := rfl
  have hlen := h.length
  have hlt : b.mStartOffset.toNat < b.mData.length :=
    (List.getElem?_eq_some_iff.mp hv).1
  have hadd := toNat_offset_add_one (b := b) (by omega)
  refine ⟨?_, hlen⟩
  show (b.mStartOffset + 1).toNat ≤ b.mData.length
  omega

-- ============================================================= primitives

/-- The `erase` stays within the data: the offset does. -/
theorem safe_removeStartOffset : Safe removeStartOffset := by
  intro b hb
  rw [run_removeStartOffset hb.unread]
  refine ⟨fun a b' h => ?_, nofun⟩
  cases h
  refine ⟨Nat.zero_le _, ?_⟩
  show (b.mData.drop _).length ≤ uint32Max
  have hlen := hb.length
  rw [List.length_drop]
  omega

/-- Appending where a check has found room. -/
private theorem safe_append {val : List UInt8} {p : Prop} [Decidable p]
    {text : String} {b : PacketBuffer} (hb : Sound b)
    (hroom : ¬ p → b.mData.length + val.length ≤ uint32Max) :
    let m : BufferM PUnit := do
      if p then throw (.runtimeError text)
      modify fun b => { b with mData := b.mData ++ val }
    (∀ a b', m.run b = .ok a b' → Sound b')
      ∧ ∀ e b', m.run b = .error e b' → Sound b' ∧ e.Defined := by
  intro m
  by_cases hp : p
  · have hrun : m.run b = .error (.runtimeError text) b := by
      show (if p then _ else _ : BufferM PUnit) b = _
      rw [if_pos hp]
      rfl
    rw [hrun]
    refine ⟨nofun, fun e b' h => ?_⟩
    cases h
    exact ⟨hb, trivial⟩
  · have hrun : m.run b = .ok ⟨⟩ { b with mData := b.mData ++ val } := by
      show (if p then _ else _ : BufferM PUnit) b = _
      rw [if_neg hp]
      rfl
    rw [hrun]
    refine ⟨fun a b' h => ?_, nofun⟩
    cases h
    have hlen : (b.mData ++ val).length = b.mData.length + val.length :=
      List.length_append
    have hoff := hb.offset
    constructor
    · show b.mStartOffset.toNat ≤ (b.mData ++ val).length
      omega
    · show (b.mData ++ val).length ≤ uint32Max
      have := hroom hp
      omega

/-- What grows the data asks first whether it may. -/
theorem safe_write (val : UInt8) : Safe (write val) := by
  refine safe_removeStartOffset.bind fun _ => .get_bind fun b hb => ?_
  apply safe_append hb
  intro hfull
  rw [List.length_singleton]
  omega

theorem safe_writeArray (val : List UInt8) : Safe (writeArray val) := by
  refine safe_removeStartOffset.bind fun _ => .get_bind fun b hb => ?_
  apply safe_append hb
  intro hfull
  omega

/-- What moves the offset has looked at the byte it moves over. -/
theorem safe_read : Safe read := by
  refine .get_bind fun b hb => ?_
  cases hv : b.mData[b.mStartOffset.toNat]? with
  | none => exact maintains_throw (I := Sound) trivial b hb
  | some v =>
      refine ⟨fun a b' h => ?_, nofun⟩
      cases h
      exact hb.advance hv

theorem safe_tryRead : Safe tryRead := by
  refine .get_bind fun b hb => ?_
  cases hv : b.mData[b.mStartOffset.toNat]? with
  | none => exact maintains_pure none b hb
  | some v =>
      refine ⟨fun a b' h => ?_, nofun⟩
      cases h
      exact hb.advance hv

/-- Byte by byte, up to the first that is not there. -/
theorem safe_readArray (n : Nat) : Safe (readArray n) := by
  induction n with
  | zero => exact maintains_pure []
  | succ n ih =>
      refine safe_tryRead.bind fun v => ?_
      cases v with
      | none => exact maintains_pure []
      | some v => exact ih.bind fun vs => maintains_pure (v :: vs)

theorem safe_readInto (n : Nat) : Safe (readInto n) := by
  induction n with
  | zero => exact maintains_pure []
  | succ n ih =>
      exact safe_read.bind fun v => ih.bind fun vs => maintains_pure (v :: vs)

/-- A look ahead moves nothing, -/
theorem safe_peek (offset : UInt8) : Safe (peek offset) := by
  refine maintains_get.bind fun b => ?_
  cases b.mData[(b.mStartOffset + offset.toUInt32).toNat]? with
  | none => exact maintains_throw trivial
  | some v => exact maintains_pure v

theorem safe_peekArrayConst (n : UInt32) : Safe (peekArrayConst n) :=
  maintains_get.bind fun _ => .check trivial (maintains_pure _)

/-- but the one into memory may cut off what has been read. -/
theorem safe_peekArray (n : UInt32) : Safe (peekArray n) := by
  refine maintains_get.bind fun b => ?_
  have hrest : Safe (do
      let b ← get
      pure (b.peekLoop n.toNat 0) : BufferM (List UInt8)) :=
    maintains_get.bind fun _ => maintains_pure _
  exact .ite (safe_removeStartOffset.bind fun _ => hrest) hrest

-- ======================================================= typed operators

variable (host : ByteOrder)

theorem safe_putInt (n x : Nat) : Safe (putInt host n x) :=
  .forM safe_write _

theorem safe_getInt (n : Nat) : Safe (getInt host n) :=
  (safe_readInto n).bind fun _ => maintains_pure _

theorem safe_getUInt16 : Safe (getUInt16 host) :=
  (safe_getInt host 2).bind fun _ => maintains_pure _

/-- The size goes first, and is one that fits. -/
theorem safe_putString (value : List UInt8) : Safe (putString host value) :=
  .check trivial
    ((safe_putInt host 2 _).bind fun _ => .forM safe_write value)

theorem safe_putCString (value : Option (List UInt8)) :
    Safe (putCString host value) := by
  cases value with
  | none => exact safe_putInt host 2 _
  | some memory =>
      exact .check trivial
        ((safe_putInt host 2 _).bind fun _ => .forM safe_write _)

theorem safe_getString : Safe (getString host) :=
  (safe_getUInt16 host).bind fun _ => (safe_readArray _).bind fun arr =>
    .check trivial (maintains_pure arr)

/-- Every operator that writes is safe, whatever the value. -/
theorem safe_putValue (v : Value) : Safe (v.put host) := by
  cases v with
  | int8 value => exact safe_write value.toUInt8
  | uint8 value => exact safe_write value
  | int16 value => exact safe_putInt host 2 _
  | uint16 value => exact safe_putInt host 2 _
  | int32 value => exact safe_putInt host 4 _
  | uint32 value => exact safe_putInt host 4 _
  | int64 value => exact safe_putInt host 8 _
  | uint64 value => exact safe_putInt host 8 _
  | float bits => exact safe_putInt host 4 _
  | double bits => exact safe_putInt host 8 _
  | string value => exact safe_putString host value

/-- The bytes of a value of fixed width, and those of a string's
length. -/
def ValueType.width : ValueType → Nat
  | .int8 => 1
  | .uint8 => 1
  | .int16 => 2
  | .uint16 => 2
  | .int32 => 4
  | .uint32 => 4
  | .int64 => 8
  | .uint64 => 8
  | .float => 4
  | .double => 8
  | .string => 2

/-- Every extraction reads a byte, an integer of the type's width or a
string, and converts what it has read. -/
theorem ValueType.get_rule (C : (α : Type) → BufferM α → Prop)
    (hmap : ∀ {α β : Type} {m : BufferM α}, C α m →
      ∀ f : α → β, C β (m >>= fun a => pure (f a)))
    (t : ValueType) (hread : t.width = 1 → C UInt8 read)
    (hint : t ≠ .string → C Nat (getInt host t.width))
    (hstring : t = .string → C (List UInt8) (getString host)) :
    C Value (t.get host) := by
  cases t with
  | int8 => exact hmap (hmap (hread rfl) _) _
  | uint8 => exact hmap (hread rfl) _
  | int16 => exact hmap (hmap (hint nofun) _) _
  | uint16 => exact hmap (hmap (hint nofun) _) _
  | int32 => exact hmap (hmap (hint nofun) _) _
  | uint32 => exact hmap (hmap (hint nofun) _) _
  | int64 => exact hmap (hmap (hint nofun) _) _
  | uint64 => exact hmap (hmap (hint nofun) _) _
  | float => exact hmap (hmap (hint nofun) _) _
  | double => exact hmap (hmap (hint nofun) _) _
  | string => exact hmap (hstring rfl) _

/-- So is every operator that reads, whatever the bytes. -/
theorem safe_getValue (t : ValueType) : Safe (t.get host) := by
  apply ValueType.get_rule host (fun _ m => Safe m)
    (fun h f => h.bind fun _ => maintains_pure _) t
  · exact fun _ => safe_read
  · exact fun _ => safe_getInt host t.width
  · exact fun _ => safe_getString host

/-- Containers of containers too. -/
theorem safe_insertion (v : Insertion) : Safe (v.put host) := by
  induction v with
  | value v => exact safe_putValue host v
  | cString s => exact safe_putCString host s
  | array n vs ih => exact .forM ih (List.finRange n)
  | vector n vs ih =>
      exact .check trivial
        ((safe_putInt host 2 _).bind fun _ => .forM ih (List.finRange n))

theorem safe_getArray (n : Nat) (value : List UInt8) :
    Safe (getArray n value) :=
  (safe_readArray _).bind fun _ => .check trivial (maintains_pure _)

theorem safe_getVector (sizeOfT : Nat) (value : List UInt8) :
    Safe (getVector host sizeOfT value) :=
  (safe_getUInt16 host).bind fun _ => (safe_readArray _).bind fun _ =>
    .check trivial (maintains_pure _)

-- ================================================================ calls

/-- The arguments the class takes its caller's word for: `Skip` stays
within the unread bytes, `resize` does not cut behind the offset. -/
def Within (b : PacketBuffer) : Call → Prop
  | .skip byteCount =>
      b.mStartOffset.toNat + byteCount.toNat ≤ b.mData.length
  | .resize byteCount => b.mStartOffset.toNat ≤ byteCount.toNat
  | _ => True

instance (b : PacketBuffer) (c : Call) : Decidable (Within b c) := by
  unfold Within
  split <;> infer_instance

/-- `skip` over bytes that are there. -/
theorem Sound.skip {b : PacketBuffer} {n : UInt8} (h : Sound b)
    (hn : b.mStartOffset.toNat + n.toNat ≤ b.mData.length) :
    Sound { b with mStartOffset := b.mStartOffset + n.toUInt32 } := by
  have hmax : uint32Max = 4294967295 := rfl
  have hlen := h.length
  have hadd := toNat_offset_add (b := b) (k := n.toUInt32)
    (by rw [UInt8.toNat_toUInt32]; omega)
  rw [UInt8.toNat_toUInt32] at hadd
  refine ⟨?_, hlen⟩
  show (b.mStartOffset + n.toUInt32).toNat ≤ b.mData.length
  omega

/-- What `resize` asks for is what it leaves. -/
@[simp] theorem length_resize (b : PacketBuffer) (n : Nat) :
    (b.resize n).mData.length = n := by
  rw [resize, List.length_append, List.length_take, List.length_replicate]
  omega

/-- What is cut off lies behind the offset. -/
theorem Sound.resize {b : PacketBuffer} {n : UInt32}
    (hn : b.mStartOffset.toNat ≤ n.toNat) : Sound (b.resize n.toNat) := by
  have hmax : uint32Max = 4294967295 := rfl
  have hlt := n.toNat_lt
  constructor
  · rw [length_resize]
    exact hn
  · rw [length_resize]
    omega

/-- A call whose argument is good keeps the invariant, returning or
throwing, and does not erase past the end. -/
theorem perform_sound {b : PacketBuffer} {c : Call} (hb : Sound b)
    (hw : Within b c) :
    (∀ r b', (perform host c).run b = .ok r b' → Sound b')
      ∧ ∀ e b', (perform host c).run b = .error e b' →
          Sound b' ∧ e.Defined := by
  cases c with
  | write val => exact (safe_write val).bind (fun _ => maintains_pure _) b hb
  | writeArray val =>
      exact (safe_writeArray val).bind (fun _ => maintains_pure _) b hb
  | read => exact safe_read.bind (fun _ => maintains_pure _) b hb
  | tryRead => exact safe_tryRead.bind (fun _ => maintains_pure _) b hb
  | readArray n =>
      exact (safe_readArray n.toNat).bind (fun _ => maintains_pure _) b hb
  | peek k => exact (safe_peek k).bind (fun _ => maintains_pure _) b hb
  | peekArrayConst n =>
      exact (safe_peekArrayConst n).bind (fun _ => maintains_pure _) b hb
  | peekArray n =>
      exact (safe_peekArray n).bind (fun _ => maintains_pure _) b hb
  | skip n =>
      refine ⟨fun r b' h => ?_, nofun⟩
      cases h
      exact hb.skip hw
  | resize n =>
      refine ⟨fun r b' h => ?_, nofun⟩
      cases h
      exact Sound.resize hw
  | reserve n => exact maintains_pure _ b hb
  | clear =>
      refine ⟨fun r b' h => ?_, nofun⟩
      cases h
      exact sound_empty
  | save => exact maintains_get.bind (fun _ => maintains_pure _) b hb
  | insert v =>
      exact (safe_insertion host v).bind (fun _ => maintains_pure _) b hb
  | extract t =>
      exact (safe_getValue host t).bind (fun _ => maintains_pure _) b hb
  | extractArray n value =>
      exact (safe_getArray n value).bind (fun _ => maintains_pure _) b hb
  | extractVector n value =>
      exact (safe_getVector host n value).bind (fun _ => maintains_pure _) b hb

/-- One step of a run. -/
theorem step_sound {b b' : PacketBuffer} {c : Call} (hb : Sound b)
    (hw : Within b c) (hstep : step host c b = some b') : Sound b' := by
  obtain ⟨hok, herror⟩ := perform_sound host hb hw
  rw [step, Option.some.injEq] at hstep
  rw [← hstep, respond]
  cases hrun : (perform host c).run b with
  | ok r b₁ => exact hok r b₁ hrun
  | error e b₁ => exact (herror e b₁ hrun).1

/-- Where an argument is bad the invariant is lost, as long as the
offset does not come round to the front again. -/
theorem not_sound_of_not_within {b b' : PacketBuffer} {c : Call}
    (hb : b.mStartOffset.toNat + 255 ≤ uint32Max) (hw : ¬ Within b c)
    (hstep : step host c b = some b') : ¬ Sound b' := by
  have hmax : uint32Max = 4294967295 := rfl
  rw [step, Option.some.injEq] at hstep
  intro hsound
  have hoff := hsound.offset
  rw [← hstep] at hoff
  cases c with
  | skip n =>
      have hn := n.toNat_lt
      have hadd := toNat_offset_add (b := b) (k := n.toUInt32)
        (by rw [UInt8.toNat_toUInt32]; omega)
      rw [UInt8.toNat_toUInt32] at hadd
      apply hw
      have hle : (b.mStartOffset + n.toUInt32).toNat ≤ b.mData.length := hoff
      show b.mStartOffset.toNat + n.toNat ≤ b.mData.length
      omega
  | resize n =>
      apply hw
      have hle : b.mStartOffset.toNat ≤ (b.resize n.toNat).mData.length := hoff
      rw [length_resize] at hle
      exact hle
  | _ => exact hw trivial

/-- The invariant along a run: as long as every `Skip` stays within the
unread bytes and no `resize` cuts behind the offset, the offset lies in
the data, `size()` and `empty()` tell the truth about what is left, and
no call erases past the end. -/
theorem sound_run {calls : List Call} {b : PacketBuffer}
    (hmeets : Lts.Meets (step host) Within {} calls)
    (hrun : Lts.run (step host) {} calls = some b) :
    Sound b
      ∧ b.size.toNat = b.mData.length - b.mStartOffset.toNat
      ∧ (b.empty = true ↔ b.mStartOffset.toNat = b.mData.length)
      ∧ ∀ c e b', Within b c → (perform host c).run b = .error e b' →
          e.Defined := by
  have hb : Sound b := Lts.run_invariant_of_meets Sound
    (fun b c b' hs hw hstep => step_sound host hs hw hstep)
    sound_empty hmeets hrun
  have hoff := hb.offset
  refine ⟨hb, ?_, ?_, ?_⟩
  · rw [size_of_unread hb.unread, List.length_drop]
  · rw [empty_of_unread hb.unread, List.isEmpty_iff, List.drop_eq_nil_iff]
    omega
  · intro c e b' hw herror
    exact ((perform_sound host hb hw).2 e b' herror).2

/-- A string written and read back, a byte skipped, the buffer cut to
where that ends. -/
theorem sound_run_skip :
    ∃ b, Lts.run (step .big) {}
        [.insert (.value (.string [65, 66])), .write 7, .extract .string,
          .skip 1, .resize 5] = some b
      ∧ Sound b
      ∧ b.size.toNat = b.mData.length - b.mStartOffset.toNat
      ∧ (b.empty = true ↔ b.mStartOffset.toNat = b.mData.length)
      ∧ ∀ c e b', Within b c → (perform .big c).run b = .error e b' →
          e.Defined := by
  have hmeets : Lts.Meets (step .big) Within {}
      [.insert (.value (.string [65, 66])), .write 7, .extract .string,
        .skip 1, .resize 5] := by decide +kernel
  exact ⟨_, rfl, sound_run .big hmeets rfl⟩

/-- `Skip` on an empty buffer is enough to lose it: four billion bytes
are left, and the next write erases out of range. -/
theorem skip_not_sound :
    ∃ b, Lts.run (step .little) {} [.skip 1] = some b
      ∧ ¬ Sound b
      ∧ b.size = 4294967295
      ∧ b.empty = false
      ∧ (perform .little (.write 0)).run b
          = .error (.undefined "erase() past the end of a vector") b := by
  refine ⟨_, rfl, fun hsound => ?_, rfl, rfl, rfl⟩
  have hoff : (1 : Nat) ≤ 0 := hsound.offset
  omega

end PacketBuffer

end AWEnginePacket
