/-
What the refusal of an over-long value leaves in the buffer.

Every length is tested where it would be written, and a test that fails
throws before it writes. A string and a vector of numbers have one
length, so a refusal leaves the buffer alone. A vector of strings has
more than one: by the time a string is refused, the vector's length and
the strings in front of it are in the buffer (`refused_clean_iff`).

Writing only appends, on both exits (`growthFrame`), so whatever came
before the throw is still there after it.
-/
import AWEnginePacket.Model.Containers
import AWEnginePacket.Proofs.Extraction

namespace AWEnginePacket

open Endian (ByteOrder leBytes)
open Effect

/-- The two exceptions over a length above 65,535. -/
def Fault.TooLong (e : Fault) : Prop :=
  e = .runtimeError "String is too long (exceeds uint16 limit)"
    ∨ e = .runtimeError "Vector is too long (exceeds uint16 limit)"

/-- What is inserted behind a length. -/
inductive Prefixed
  | string (value : List UInt8)
  | integers (t : IntType) (value : List t.Elem)
  | strings (value : List (List UInt8))

namespace Prefixed

/-- `buffer << value`. -/
def put (host : ByteOrder) : Prefixed → BufferM PUnit
  | string value => PacketBuffer.putString host value
  | integers t value => t.putVector host value
  | strings value =>
      PacketBuffer.putVector host (PacketBuffer.putString host) value

/-- The length tested first is the one that is too long, or the only
one there is. -/
def TestedFirst : Prefixed → Prop
  | string _ => True
  | integers _ _ => True
  | strings value => uint16Max < value.length

end Prefixed

namespace PacketBuffer

variable {b b' : PacketBuffer} (host : ByteOrder)

-- ================================================================ appending

/-- What is unread stays in front. -/
def growthFrame : Frame PacketBuffer where
  rel b b' := b.unreadBytes <+: b'.unreadBytes
  refl _ := List.prefix_rfl
  trans h h' := h.trans h'

/-- What `erase()` leaves, if it may be called. -/
theorem run_removeStartOffset_cases (b : PacketBuffer) :
    removeStartOffset.run b = .ok ⟨⟩ ⟨b.unreadBytes, 0⟩
      ∨ removeStartOffset.run b
        = .error (.undefined "erase() past the end of a vector") b := by
  unfold removeStartOffset
  rw [EStateM.run_bind, EStateM.run_get]
  simp only
  by_cases hzero : b.mStartOffset = 0
  · left
    rw [if_neg (not_not_intro hzero)]
    have hb : b = ⟨b.unreadBytes, 0⟩ := by
      rw [unreadBytes, hzero]
      exact congrArg (PacketBuffer.mk b.mData) hzero
    exact congrArg (EStateM.Result.ok PUnit.unit) hb
  · rw [if_pos hzero]
    by_cases hend : b.mData.length < b.mStartOffset.toNat
    · right
      rw [if_pos hend]
      rfl
    · left
      rw [if_neg hend]
      rfl

/-- `Write` appends the byte, or throws something else than a refusal
and appends nothing. -/
theorem run_write_cases (v : UInt8) (b : PacketBuffer) :
    (write v).run b = .ok ⟨⟩ ⟨b.unreadBytes ++ [v], 0⟩
      ∨ ∃ e b', (write v).run b = .error e b' ∧ ¬ e.TooLong
        ∧ b'.unreadBytes = b.unreadBytes := by
  unfold write
  rcases run_removeStartOffset_cases b with hrun | hrun
  · rw [run_bind_of_ok hrun, EStateM.run_bind, EStateM.run_get]
    simp only
    split
    · exact .inr ⟨.runtimeError "Buffer is full", _, rfl,
        by simp [Fault.TooLong], rfl⟩
    · exact .inl rfl
  · exact .inr ⟨_, b, run_bind_of_error hrun, by simp [Fault.TooLong], rfl⟩

/-- `Write` returned: there is one more byte. -/
theorem unreadBytes_of_write {v : UInt8}
    (hrun : (write v).run b = .ok ⟨⟩ b') :
    b'.unreadBytes = b.unreadBytes ++ [v] := by
  rcases run_write_cases v b with hok | ⟨e, b₁, herror, -⟩
  · rw [hok] at hrun
    cases hrun
    rfl
  · rw [herror] at hrun
    cases hrun

/-- So there are as many more as were written. -/
theorem unreadBytes_of_forM_write {bs : List UInt8}
    (hrun : (bs.forM write).run b = .ok ⟨⟩ b') :
    b'.unreadBytes = b.unreadBytes ++ bs := by
  induction bs generalizing b with
  | nil =>
      cases hrun
      rw [List.append_nil]
  | cons v bs ih =>
      obtain ⟨⟨⟩, b₁, hfirst, hrest⟩ := of_run_bind_ok hrun
      rw [ih hrest, unreadBytes_of_write hfirst, List.append_assoc]
      rfl

theorem keeps_growth_write (v : UInt8) : Keeps growthFrame (write v) := by
  intro b
  show b.unreadBytes <+: (after (write v) b).unreadBytes
  rcases run_write_cases v b with hrun | ⟨e, b', hrun, -, hsame⟩
  · rw [after_of_ok hrun]
    exact List.prefix_append b.unreadBytes [v]
  · rw [after_of_error hrun]
    exact hsame ▸ List.prefix_rfl

theorem keeps_growth_putString (value : List UInt8) :
    Keeps growthFrame (putString host value) := by
  apply Keeps.check
  have hlength : Keeps growthFrame
      (putUInt16 host (UInt16.ofNat value.length)) :=
    .forM keeps_growth_write _
  apply hlength.bind
  intro _
  exact .forM keeps_growth_write value

-- ================================================================= refusing

/-- What `Write` throws is no refusal. -/
theorem throws_write (v : UInt8) : Throws (¬ ·.TooLong) (write v) := by
  intro b e b' hrun
  rcases run_write_cases v b with hok | ⟨e₁, b₁, herror, hnot, -⟩
  · rw [hok] at hrun
    cases hrun
  · rw [herror] at hrun
    cases hrun
    exact hnot

theorem run_putVector_long {T : Type} (put : T → BufferM PUnit)
    {value : List T} (h : uint16Max < value.length) (b : PacketBuffer) :
    (putVector host put value).run b
      = .error (.runtimeError "Vector is too long (exceeds uint16 limit)")
        b := by
  unfold putVector
  rw [if_pos h]
  rfl

/-- The insertion of `v` into `b` throws over a length, and leaves
`b'`. -/
def Refused (v : Prefixed) (b b' : PacketBuffer) : Prop :=
  ∃ e, (v.put host).run b = .error e b' ∧ e.TooLong

/-- Nothing but a test throws a refusal. -/
theorem not_refused_of_throws {v : Prefixed}
    (h : Throws (¬ ·.TooLong) (v.put host)) : ¬ Refused host v b b' := by
  rintro ⟨e, hrun, htoo⟩
  exact h b e b' hrun htoo

theorem throws_putUInt16 (value : UInt16) :
    Throws (¬ ·.TooLong) (putUInt16 host value) :=
  .forM throws_write _

theorem throws_putElem (t : IntType) (x : t.Elem) :
    Throws (¬ ·.TooLong) (t.put host x) := by
  cases t with
  | int8 => exact throws_write _
  | uint8 => exact throws_write _
  | int16 => exact .forM throws_write _
  | uint16 => exact .forM throws_write _
  | int32 => exact .forM throws_write _
  | uint32 => exact .forM throws_write _
  | int64 => exact .forM throws_write _
  | uint64 => exact .forM throws_write _

/-- A string that is refused is so before its length is written. -/
theorem unchanged_of_string {value : List UInt8}
    (h : Refused host (.string value) b b') : b' = b := by
  by_cases hlong : uint16Max < value.length
  · obtain ⟨e, hrun, -⟩ := h
    have hlong := run_putString_long host hlong b
    rw [Prefixed.put, hlong] at hrun
    cases hrun
    rfl
  · apply absurd h
    apply not_refused_of_throws
    rw [Prefixed.put, putString, if_neg hlong]
    exact (throws_putUInt16 host _).bind fun _ => .forM throws_write value

/-- So is a vector of numbers. -/
theorem unchanged_of_integers {t : IntType} {value : List t.Elem}
    (h : Refused host (.integers t value) b b') : b' = b := by
  by_cases hlong : uint16Max < value.length
  · obtain ⟨e, hrun, -⟩ := h
    have hlong := run_putVector_long host (t.put host) hlong b
    rw [Prefixed.put, IntType.putVector, hlong] at hrun
    cases hrun
    rfl
  · apply absurd h
    apply not_refused_of_throws
    rw [Prefixed.put, IntType.putVector, putVector, if_neg hlong]
    exact (throws_putUInt16 host _).bind fun _ =>
      .forM (throws_putElem host t) value

/-- A vector of strings is if it is too long itself. -/
theorem unchanged_of_strings {value : List (List UInt8)}
    (hlong : uint16Max < value.length)
    (h : Refused host (.strings value) b b') : b' = b := by
  obtain ⟨e, hrun, -⟩ := h
  have hlong := run_putVector_long host (putString host) hlong b
  rw [Prefixed.put, hlong] at hrun
  cases hrun
  rfl

/-- If it is not, its length has been written. -/
theorem grown_of_strings {value : List (List UInt8)}
    (hshort : ¬ uint16Max < value.length)
    (h : Refused host (.strings value) b b') :
    b.unreadBytes ++ leBytes 2 value.length <+: b'.unreadBytes := by
  obtain ⟨e, hrun, htoo⟩ := h
  have hcount := toNat_length (Nat.le_of_not_lt hshort)
  rw [Prefixed.put, putVector, if_neg hshort] at hrun
  cases hlength : (putUInt16 host (UInt16.ofNat value.length)).run b with
  | error e₁ b₁ =>
      have hthrow := run_bind_of_error
        (f := fun _ => value.forM (putString host)) hlength
      rw [hthrow] at hrun
      cases hrun
      exact absurd htoo (throws_putUInt16 host _ _ _ _ hlength)
  | ok u b₁ =>
      rw [run_bind_of_ok hlength] at hrun
      have hgrown := (Keeps.forM (keeps_growth_putString host) value).of_error
        hrun
      rw [putUInt16, putInt, hcount, Endian.store_htole] at hlength
      rw [← unreadBytes_of_forM_write hlength]
      exact hgrown

/-- A refusal leaves the unread bytes as they were if and only if it is
over the length tested first. -/
theorem refused_clean_iff {v : Prefixed} (h : Refused host v b b') :
    b'.unreadBytes = b.unreadBytes ↔ v.TestedFirst := by
  cases v with
  | string value =>
      rw [unchanged_of_string host h]
      exact iff_of_true rfl trivial
  | integers t value =>
      rw [unchanged_of_integers host h]
      exact iff_of_true rfl trivial
  | strings value =>
      by_cases hlong : uint16Max < value.length
      · rw [unchanged_of_strings host hlong h]
        exact iff_of_true rfl hlong
      · apply iff_of_false
        · intro hsame
          have hle := (grown_of_strings host hlong h).length_le
          rw [hsame, List.length_append, Endian.leBytes_length] at hle
          omega
        · exact hlong

/-- One character more than a string may have. -/
def longString : List UInt8 := List.replicate (uint16Max + 1) 65

theorem length_longString : uint16Max < longString.length := by
  rw [longString, List.length_replicate]
  omega

/-- Alone it is refused before anything is written. -/
theorem refused_clean_string :
    (⟨[7], 0⟩ : PacketBuffer).unreadBytes
        = (⟨[7], 0⟩ : PacketBuffer).unreadBytes
      ↔ (Prefixed.string longString).TestedFirst :=
  refused_clean_iff .little (v := .string longString)
    ⟨_, run_putString_long .little length_longString ⟨[7], 0⟩, .inl rfl⟩

/-- In a vector it is refused when the vector's length is in the
buffer. -/
theorem refused_leaves_count :
    Refused .little (.strings [longString]) ⟨[7], 0⟩ ⟨[7, 1, 0], 0⟩
      ∧ (⟨[7, 1, 0], 0⟩ : PacketBuffer).unreadBytes
        ≠ (⟨[7], 0⟩ : PacketBuffer).unreadBytes := by
  refine ⟨⟨_, ?_, .inl rfl⟩, by decide⟩
  have hcount : ¬ uint16Max < [longString].length := by
    rw [List.length_singleton]
    decide
  have hlength : (putUInt16 .little (UInt16.ofNat [longString].length)).run
      ⟨[7], 0⟩ = .ok ⟨⟩ ⟨[7, 1, 0], 0⟩ := by
    rw [List.length_singleton]
    rfl
  have hlong := run_putString_long .little length_longString ⟨[7, 1, 0], 0⟩
  rw [Prefixed.put, putVector, if_neg hcount, run_bind_of_ok hlength,
    List.forM, run_bind_of_error hlong]

end PacketBuffer

end AWEnginePacket
