/-
`Peek` and `PeekArray` against the reads they look ahead of.

`PeekArray` shows what `ReadArray` would take and leaves it there. Its
non-const overload compacts where the other throws
(`peekArray_is_readArray`).

`Peek` adds its argument to the offset in 32 bits. Where the sum wraps,
the byte it shows is one at the front that was read long ago, and the
test for the end does not see it (`peekAgrees_iff`).
-/
import AWEnginePacket.Proofs.Extraction
import AWEnginePacket.Proofs.Fifo

namespace AWEnginePacket

open Effect

namespace PacketBuffer

variable {b : PacketBuffer}

-- ================================================================= one byte

/-- The last of `k + 1` successive `Read()`s. -/
def readNth (k : Nat) : BufferM UInt8 := do
  let _ ← readInto k
  read

/-- `Peek(k)` shows the byte that the `k + 1`-th `Read()` takes, and
throws if there are no more than `k`. -/
def PeekAgrees (k : UInt8) (b : PacketBuffer) : Prop :=
  if k.toNat < b.size.toNat then
    ∃ v b', (peek k).run b = .ok v b ∧ (readNth k.toNat).run b = .ok v b'
  else
    ∃ what, (peek k).run b = .error (.runtimeError what) b

/-- Of a sound buffer, `size()` is the number of unread bytes. -/
theorem toNat_size (hoff : b.mStartOffset.toNat ≤ b.mData.length)
    (hdata : b.mData.length ≤ uint32Max) :
    b.size.toNat = b.mData.length - b.mStartOffset.toNat := by
  have hb : unread.holds b b.unreadBytes := ⟨hoff, hdata, rfl⟩
  rw [size_of_unread hb, length_unreadBytes]

theorem run_peek {k : UInt8}
    (h : (b.mStartOffset + k.toUInt32).toNat < b.mData.length) :
    (peek k).run b
      = .ok b.mData[(b.mStartOffset + k.toUInt32).toNat] b := by
  unfold peek
  rw [EStateM.run_bind, EStateM.run_get]
  simp only [List.getElem?_eq_getElem h]
  rfl

theorem run_peek_end {k : UInt8}
    (h : b.mData.length ≤ (b.mStartOffset + k.toUInt32).toNat) :
    ∃ what, (peek k).run b = .error (.runtimeError what) b := by
  unfold peek
  rw [EStateM.run_bind, EStateM.run_get]
  simp only [List.getElem?_eq_none h]
  exact ⟨_, rfl⟩

/-- `Read()` for the `k + 1`-th time. -/
theorem run_readNth {k : Nat} (h : b.mStartOffset.toNat + k < b.mData.length)
    (hdata : b.mData.length ≤ uint32Max) :
    ∃ b', (readNth k).run b = .ok b.mData[b.mStartOffset.toNat + k] b' := by
  obtain ⟨b₁, hrun, hsame, hoff⟩ :=
    takes_readInto (b := b) k (by omega) (by omega)
  have hlt : b₁.mStartOffset.toNat < b₁.mData.length := by
    rw [hsame, hoff]
    exact h
  have hread := run_read hlt
  simp only [hsame, hoff] at hread
  exact ⟨_, (run_bind_of_ok hrun).trans hread⟩

/-- The sum is one of 32 bits. -/
theorem toNat_add_peeked (k : UInt8)
    (h : b.mStartOffset.toNat + k.toNat ≤ uint32Max) :
    (b.mStartOffset + k.toUInt32).toNat = b.mStartOffset.toNat + k.toNat := by
  have hadd := toNat_offset_add (b := b) (k := k.toUInt32)
  rw [UInt8.toNat_toUInt32] at hadd
  exact hadd h

theorem peekAgrees_of_sum {k : UInt8}
    (hoff : b.mStartOffset.toNat ≤ b.mData.length)
    (hdata : b.mData.length ≤ uint32Max)
    (h : b.mStartOffset.toNat + k.toNat ≤ uint32Max) : PeekAgrees k b := by
  have hsum := toNat_add_peeked k h
  unfold PeekAgrees
  rw [toNat_size hoff hdata]
  by_cases hk : k.toNat < b.mData.length - b.mStartOffset.toNat
  · rw [if_pos hk]
    obtain ⟨b', hread⟩ := run_readNth (b := b) (k := k.toNat) (by omega) hdata
    have hpeek := run_peek (b := b) (k := k) (by rw [hsum]; omega)
    simp only [hsum] at hpeek
    exact ⟨_, b', hpeek, hread⟩
  · rw [if_neg hk]
    apply run_peek_end
    rw [hsum]
    omega

/-- Past the last offset there is nothing to show, but `Peek` begins at
the front again. -/
theorem run_peek_wrapped {k : UInt8}
    (hoff : b.mStartOffset.toNat ≤ b.mData.length)
    (h : uint32Max < b.mStartOffset.toNat + k.toNat) :
    ∃ v, (peek k).run b = .ok v b := by
  have hmax : uint32Max = 4294967295 := rfl
  have hlt := b.mStartOffset.toNat_lt
  have hk := k.toNat_lt
  have hsum : (b.mStartOffset + k.toUInt32).toNat < b.mData.length := by
    rw [UInt32.toNat_add, UInt8.toNat_toUInt32]
    omega
  exact ⟨_, run_peek hsum⟩

theorem not_peekAgrees_of_wrapped {k : UInt8}
    (hoff : b.mStartOffset.toNat ≤ b.mData.length)
    (hdata : b.mData.length ≤ uint32Max)
    (h : uint32Max < b.mStartOffset.toNat + k.toNat) : ¬ PeekAgrees k b := by
  obtain ⟨v, hrun⟩ := run_peek_wrapped hoff h
  unfold PeekAgrees
  rw [toNat_size hoff hdata, if_neg (by omega)]
  rintro ⟨what, hthrow⟩
  rw [hrun] at hthrow
  cases hthrow

/-- `Peek` agrees with `Read` as long as the index it looks at is an
offset of 32 bits. -/
theorem peekAgrees_iff (k : UInt8)
    (hoff : b.mStartOffset.toNat ≤ b.mData.length)
    (hdata : b.mData.length ≤ uint32Max) :
    PeekAgrees k b ↔ b.mStartOffset.toNat + k.toNat ≤ uint32Max := by
  constructor
  · intro h
    by_contra hsum
    exact not_peekAgrees_of_wrapped hoff hdata (Nat.lt_of_not_le hsum) h
  · exact peekAgrees_of_sum hoff hdata

/-- The second of two unread bytes. -/
theorem peekAgrees_second : PeekAgrees 1 ⟨[7, 8, 9], 1⟩ :=
  (peekAgrees_iff (b := ⟨[7, 8, 9], 1⟩) 1
    (show (1 : Nat) ≤ 3 by decide) (show (3 : Nat) ≤ uint32Max by decide)).mpr
    (show 1 + 1 ≤ uint32Max by decide)

/-- A buffer as full as writing makes it, and all of it read. -/
def drainedBuffer : PacketBuffer :=
  { mData := List.replicate uint32Max 0, mStartOffset := 4294967295 }

theorem length_drainedBuffer : drainedBuffer.mData.length = uint32Max :=
  List.length_replicate

theorem offset_drainedBuffer : drainedBuffer.mStartOffset.toNat = uint32Max :=
  rfl

/-- It is empty, and yet `Peek(1)` shows a byte. -/
theorem drainedBuffer_peeks :
    drainedBuffer.size.toNat = 0
      ∧ (∃ v, (peek 1).run drainedBuffer = .ok v drainedBuffer)
      ∧ ¬ PeekAgrees 1 drainedBuffer := by
  have hlen := length_drainedBuffer
  have hoffset := offset_drainedBuffer
  have hoff : drainedBuffer.mStartOffset.toNat
      ≤ drainedBuffer.mData.length := by
    rw [hoffset, hlen]
  have hwraps : uint32Max
      < drainedBuffer.mStartOffset.toNat + (1 : UInt8).toNat := by
    rw [hoffset]
    exact Nat.lt_succ_self uint32Max
  refine ⟨?_, run_peek_wrapped hoff hwraps, ?_⟩
  · rw [toNat_size hoff (Nat.le_of_eq hlen), hlen, hoffset]
    exact Nat.sub_self uint32Max
  · exact not_peekAgrees_of_wrapped hoff (Nat.le_of_eq hlen) hwraps

-- =============================================================== many bytes

/-- `PeekArray(n)` gives the bytes `ReadArray(n)` would give, and leaves
them. -/
def PeeksArray (n : UInt32) (b : PacketBuffer) : Prop :=
  ∃ bs b' b'', (peekArray n).run b = .ok bs b'
    ∧ (readArray n.toNat).run b = .ok bs b''
    ∧ b'.size = b.size ∧ b'.unreadBytes = b.unreadBytes

/-- The const overload gives them too, or it throws because the length
and the offset have no 32-bit sum. -/
def PeeksArrayConst (n : UInt32) (b : PacketBuffer) : Prop :=
  (∀ bs b', (peekArrayConst n).run b = .ok bs b' →
      b' = b ∧ ∃ b'', (readArray n.toNat).run b = .ok bs b'')
    ∧ ∀ e b', (peekArrayConst n).run b = .error e b' →
      b' = b ∧ uint32Max < n.toNat + b.mStartOffset.toNat

theorem peeksArray_of_unread (n : UInt32) {l : List UInt8}
    (hb : unread.holds b l) : PeeksArray n b := by
  obtain ⟨b', hpeek, hb'⟩ := run_peekArray n hb
  obtain ⟨b'', hread, -⟩ := run_readArray n.toNat hb
  have hsize : b'.size = b.size := by
    apply UInt32.toNat_inj.mp
    rw [size_of_unread hb', size_of_unread hb]
  exact ⟨_, b', b'', hpeek, hread, hsize, hb'.2.2.trans hb.2.2.symm⟩

theorem peeksArrayConst_of_unread (n : UInt32) {l : List UInt8}
    (hb : unread.holds b l) : PeeksArrayConst n b := by
  obtain ⟨b'', hread, -⟩ := run_readArray n.toNat hb
  unfold PeeksArrayConst peekArrayConst
  rw [EStateM.run_bind, EStateM.run_get]
  simp only
  by_cases hlong : n.toNat + b.mStartOffset.toNat > uint32Max
  · rw [if_pos hlong]
    refine ⟨fun bs b' h => ?_, fun e b' h => ?_⟩
    · cases h
    · cases h
      exact ⟨rfl, hlong⟩
  · rw [if_neg hlong, peekLoop_of_unread hb, List.drop_zero]
    refine ⟨fun bs b' h => ?_, fun e b' h => ?_⟩
    · cases h
      exact ⟨rfl, b'', hread⟩
    · cases h

/-- Both overloads of `PeekArray` are `ReadArray` without the taking. -/
theorem peekArray_is_readArray (n : UInt32)
    (hoff : b.mStartOffset.toNat ≤ b.mData.length)
    (hdata : b.mData.length ≤ uint32Max) :
    PeeksArray n b ∧ PeeksArrayConst n b := by
  have hb : unread.holds b b.unreadBytes := ⟨hoff, hdata, rfl⟩
  exact ⟨peeksArray_of_unread n hb, peeksArrayConst_of_unread n hb⟩

/-- So long a length that the buffer is compacted first. -/
theorem peekArray_is_readArray_compacted :
    PeeksArray 4294967295 ⟨[7, 8, 9], 1⟩
      ∧ PeeksArrayConst 4294967295 ⟨[7, 8, 9], 1⟩ :=
  peekArray_is_readArray (b := ⟨[7, 8, 9], 1⟩) 4294967295
    (show (1 : Nat) ≤ 3 by decide) (show (3 : Nat) ≤ uint32Max by decide)

end PacketBuffer

end AWEnginePacket
