/-
Readers on a buffer that ends too early.

The integer and string operators throw over whatever is cut off the
bytes they take. A game name does not: it is filled up with zeros, and
what throws is the reader behind it, which finds nothing. What a reader
throws is an exception of the code, and it leaves the buffer sound.

No reader changes the data, it only moves the offset over them
(`dataFrame`).
-/
import AWEnginePacket.Proofs.Login
import AWEnginePacket.Proofs.Soundness

namespace AWEnginePacket

open Endian (ByteOrder leBytes)
open Effect
open QueueCodec

namespace PacketBuffer

variable {b b' : PacketBuffer} {l : List UInt8}

-- ================================================================= bytes

/-- An empty buffer has no byte to read. -/
theorem starves_read : Starves unread Fault.Defined read [] :=
  fun b hb => ⟨_, b, [], run_read_nil hb, trivial, hb⟩

/-- One byte can only be cut off whole. -/
theorem rejects_read (v : UInt8) : Rejects unread Fault.Defined read [v] := by
  intro cut hcut hne
  cases cut with
  | nil => exact starves_read
  | cons w rest =>
      obtain ⟨rfl, hrest⟩ := List.cons_prefix_cons.mp hcut
      rw [List.prefix_nil.mp hrest] at hne
      exact absurd rfl hne

/-- A byte that is missing is missed by the `Read` that asks for it,
whatever the ones before have given. -/
theorem rejects_readInto (inp : List UInt8) :
    Rejects unread Fault.Defined (readInto inp.length) inp := by
  induction inp with
  | nil => exact rejects_nil
  | cons v vs ih =>
      have hrest := ih.bind_right (k := fun vs => pure (v :: vs))
      exact (rejects_read v).bind (consumes_read v) hrest

/-- A cut is shorter than what it is cut off. -/
theorem length_lt_of_cut {cut inp : List UInt8} (hcut : cut <+: inp)
    (hne : cut ≠ inp) : cut.length < inp.length := by
  have hle := hcut.length_le
  have hlength : cut.length ≠ inp.length := fun h => hne (hcut.eq_of_length h)
  omega

/-- `ReadArray` takes all there is of too few bytes. -/
theorem run_readArray_short {n : Nat} (hb : unread.holds b l)
    (hl : l.length ≤ n) :
    ∃ b', (readArray n).run b = .ok l b' ∧ unread.holds b' [] := by
  obtain ⟨b', hrun, hb'⟩ := run_readArray n hb
  rw [List.take_of_length_le hl] at hrun
  rw [List.drop_of_length_le hl] at hb'
  exact ⟨b', hrun, hb'⟩

-- ======================================================= typed operators

variable (host : ByteOrder)

/-- The conversion behind the bytes is not reached. -/
theorem rejects_getInt (n x : Nat) :
    Rejects unread Fault.Defined (getInt host n) (leBytes n x) := by
  have h := rejects_readInto (leBytes n x)
  rw [Endian.leBytes_length] at h
  exact h.bind_right

/-- So it is with the widths of the operators. -/
theorem rejects_getUInt16 (value : UInt16) :
    Rejects unread Fault.Defined (getUInt16 host) (leBytes 2 value.toNat) :=
  (rejects_getInt host 2 _).bind_right

/-- And with four bytes. -/
theorem rejects_getUInt32 (value : UInt32) :
    Rejects unread Fault.Defined (getUInt32 host) (leBytes 4 value.toNat) :=
  (rejects_getInt host 4 _).bind_right

/-- A string is rejected by the size it begins with, or by its own test of
how many characters it got. -/
theorem rejects_getString {value : List UInt8}
    (h : value.length ≤ uint16Max) :
    Rejects unread Fault.Defined (getString host) (stringBytes value) := by
  have hlen := toNat_length h
  have hconsumes := consumes_getUInt16 host (UInt16.ofNat value.length)
  have hrejects := rejects_getUInt16 host (UInt16.ofNat value.length)
  rw [hlen] at hconsumes hrejects
  unfold getString
  refine hrejects.bind hconsumes ?_
  -- the characters: `ReadArray` is content with fewer, the test is not
  intro cut hcut hne b hb
  have hlt := length_lt_of_cut hcut hne
  obtain ⟨b', hrun, hb'⟩ := run_readArray_short hb (Nat.le_of_lt hlt)
  rw [hlen]
  refine ⟨.runtimeError
    "There were not data for whole string (length pointed outside of buffer)",
    b', [], ?_, trivial, hb'⟩
  rw [run_bind_of_ok hrun, if_pos (by omega)]
  rfl

-- ================================================================== data

/-- The data stay as they are. -/
def dataFrame : Frame PacketBuffer where
  rel b b' := b'.mData = b.mData
  refl _ := rfl
  trans h h' := h'.trans h

/-- A `Read` moves the offset, or throws. -/
theorem keeps_data_read : Keeps dataFrame read := by
  intro b
  show (after read b).mData = b.mData
  unfold after read
  rw [EStateM.run_bind, EStateM.run_get]
  cases hv : b.mData[b.mStartOffset.toNat]? with
  | none => simp only [hv]; rfl
  | some v => simp only [hv]; rfl

/-- Where it need not throw, it does the same. -/
theorem keeps_data_tryRead : Keeps dataFrame tryRead := by
  intro b
  show (after tryRead b).mData = b.mData
  unfold after tryRead
  rw [EStateM.run_bind, EStateM.run_get]
  cases hv : b.mData[b.mStartOffset.toNat]? with
  | none => simp only [hv]; rfl
  | some v => simp only [hv]; rfl

/-- `ReadArray` stops at the end of the data. -/
theorem keeps_data_readArray (n : Nat) : Keeps dataFrame (readArray n) := by
  induction n with
  | zero => exact keeps_pure []
  | succ n ih =>
      refine keeps_data_tryRead.bind fun v => ?_
      cases v with
      | none => exact keeps_pure []
      | some v => exact ih.bind fun vs => keeps_pure (v :: vs)

/-- An integer is read byte by byte. -/
theorem keeps_data_readInto (n : Nat) : Keeps dataFrame (readInto n) := by
  induction n with
  | zero => exact keeps_pure []
  | succ n ih =>
      exact keeps_data_read.bind fun v => ih.bind fun vs => keeps_pure (v :: vs)

/-- And then only converted. -/
theorem keeps_data_getUInt32 : Keeps dataFrame (getUInt32 host) := by
  have hint : Keeps dataFrame (getInt host 4) :=
    (keeps_data_readInto 4).bind fun _ => keeps_pure _
  exact hint.bind fun _ => keeps_pure _

end PacketBuffer

-- ============================================================ game names

namespace ProtocolGameName

variable {α : Type} {k : ProtocolGameName → BufferM α}
  {inp inp' : List UInt8}

/-- A name that is cut off leaves nothing to the reader behind it. -/
theorem rejects_get_bind (gameName : ProtocolGameName) (h : inp.length = 8)
    (hk : ∀ copy, Rejects PacketBuffer.unread Fault.Defined (k copy) inp')
    (hne : inp' ≠ []) :
    Rejects PacketBuffer.unread Fault.Defined (gameName.get >>= k)
      (inp ++ inp') := by
  intro cut hcut hne'
  rcases prefix_append_cases hcut with ⟨hname, -⟩ | ⟨cut', rfl, hcut'⟩
  · intro b hb
    have hle : cut.length ≤ charLength := by
      rw [charLength, ← h]
      exact hname.length_le
    obtain ⟨b₁, hrun, hb₁⟩ := PacketBuffer.run_readArray_short hb hle
    have hget : ∃ copy, gameName.get.run b = .ok copy b₁ :=
      ⟨_, (run_bind_of_ok hrun).trans rfl⟩
    obtain ⟨copy, hget⟩ := hget
    obtain ⟨e, b₂, l, hrun', he, hb₂⟩ :=
      hk copy [] List.nil_prefix hne.symm b₁ hb₁
    refine ⟨e, b₂, l, ?_, he, hb₂⟩
    rw [run_bind_of_ok hget, hrun']
  · obtain ⟨copy, hget⟩ := gameName.consumes_get h
    apply hget.bind_starves
    apply hk copy cut' hcut'
    rintro rfl
    exact hne' rfl

/-- A game name is an array of characters. -/
theorem keeps_data_get (gameName : ProtocolGameName) :
    Keeps PacketBuffer.dataFrame gameName.get :=
  (PacketBuffer.keeps_data_readArray charLength).bind fun _ => keeps_pure _

end ProtocolGameName

end AWEnginePacket
