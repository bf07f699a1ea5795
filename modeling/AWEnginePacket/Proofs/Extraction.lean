/-
Extraction from bytes of any kind.

`ValueType.need` is what an extraction takes off the unread bytes: the
width of the type, or two bytes and as many as they say. It succeeds if
there are so many and then takes exactly these; otherwise it throws,
everything is read, and so every later extraction throws too
(`ExtractsExactly`).

# Where the offset ends

The offset has 32 bits and the vector's size does not. Writing stops at
2³² − 1 bytes, but `resize` does not, and in a larger buffer an
extraction that would take the offset past 2³² − 1 goes on at the front
and never throws (`extractsExactly_iff`).
-/
import AWEnginePacket.Proofs.Starving
import AWEnginePacket.Proofs.RoundTrip

namespace AWEnginePacket

open Endian (ByteOrder ofLe)
open Effect

namespace PacketBuffer

variable {α β : Type} {b b' : PacketBuffer} {n : Nat} {a : α}

-- ============================================================== two outcomes

/-- The unread bytes. -/
def unreadBytes (b : PacketBuffer) : List UInt8 :=
  b.mData.drop b.mStartOffset.toNat

/-- It returns `a` and takes `n` bytes. -/
def Takes (m : BufferM α) (n : Nat) (a : α) (b : PacketBuffer) : Prop :=
  ∃ b', m.run b = .ok a b' ∧ b'.mData = b.mData
    ∧ b'.mStartOffset.toNat = b.mStartOffset.toNat + n

/-- It throws a `std::runtime_error`, and everything is read. -/
def Fails (m : BufferM α) (b : PacketBuffer) : Prop :=
  ∃ what b', m.run b = .error (.runtimeError what) b' ∧ b'.mData = b.mData
    ∧ b'.mStartOffset.toNat = b.mData.length

theorem takes_pure (a : α) : Takes (pure a) 0 a b := ⟨b, rfl, rfl, rfl⟩

/-- One after the other, the second from where the first left off. -/
theorem Takes.bind {m : BufferM α} {k : α → BufferM β} {n' : Nat} {x : β}
    (h : Takes m n a b)
    (hk : ∀ b', b'.mData = b.mData →
      b'.mStartOffset.toNat = b.mStartOffset.toNat + n →
      Takes (k a) n' x b') : Takes (m >>= k) (n + n') x b := by
  obtain ⟨b₁, hrun, hdata, hoff⟩ := h
  obtain ⟨b₂, hrun', hdata', hoff'⟩ := hk b₁ hdata hoff
  refine ⟨b₂, ?_, hdata'.trans hdata, ?_⟩
  · rw [run_bind_of_ok hrun, hrun']
  · omega

theorem Takes.map {m : BufferM α} (h : Takes m n a b) (f : α → β) :
    Takes (m >>= fun x => pure (f x)) n (f a) b := by
  show Takes _ (n + 0) _ _
  exact h.bind fun _ _ _ => takes_pure (f a)

theorem Takes.bind_fails {m : BufferM α} {k : α → BufferM β}
    (h : Takes m n a b)
    (hk : ∀ b', b'.mData = b.mData →
      b'.mStartOffset.toNat = b.mStartOffset.toNat + n → Fails (k a) b') :
    Fails (m >>= k) b := by
  obtain ⟨b₁, hrun, hdata, hoff⟩ := h
  obtain ⟨what, b₂, hrun', hdata', hoff'⟩ := hk b₁ hdata hoff
  refine ⟨what, b₂, ?_, hdata'.trans hdata, ?_⟩
  · rw [run_bind_of_ok hrun, hrun']
  · rw [hoff', hdata]

theorem Fails.bind {m : BufferM α} (h : Fails m b) (k : α → BufferM β) :
    Fails (m >>= k) b := by
  obtain ⟨what, b₁, hrun, hrest⟩ := h
  exact ⟨what, b₁, run_bind_of_error hrun, hrest⟩

-- ==================================================================== reads

/-- The bytes an extraction takes one by one. -/
theorem take_unreadBytes_succ (n : Nat)
    (h : b.mStartOffset.toNat < b.mData.length) :
    b.unreadBytes.take (n + 1) = b.mData[b.mStartOffset.toNat]
      :: (b.mData.drop (b.mStartOffset.toNat + 1)).take n := by
  rw [unreadBytes, List.drop_eq_getElem_cons h, List.take_succ_cons]

/-- A loop that takes a byte, and then does what it did a byte later. -/
theorem takes_loop {loop : Nat → BufferM (List UInt8)}
    (hzero : loop 0 = pure [])
    (hsucc : ∀ (n : Nat) (b : PacketBuffer)
      (h : b.mStartOffset.toNat < b.mData.length), (loop (n + 1)).run b
        = (loop n >>= fun vs => pure (b.mData[b.mStartOffset.toNat] :: vs)).run
          { b with mStartOffset := b.mStartOffset + 1 })
    (n : Nat) (hn : b.mStartOffset.toNat + n ≤ b.mData.length)
    (hmax : b.mStartOffset.toNat + n ≤ uint32Max) :
    Takes (loop n) n (b.unreadBytes.take n) b := by
  induction n generalizing b with
  | zero =>
      rw [hzero]
      exact takes_pure []
  | succ n ih =>
      have hlt : b.mStartOffset.toNat < b.mData.length := by omega
      have hnext := toNat_offset_add_one (b := b) (by omega)
      have hrest := @ih { b with mStartOffset := b.mStartOffset + 1 }
        (by dsimp only; omega) (by dsimp only; omega)
      rw [unreadBytes, hnext] at hrest
      obtain ⟨b', hrun, hdata, hoff⟩ :=
        hrest.map (b.mData[b.mStartOffset.toNat] :: ·)
      refine ⟨b', ?_, hdata, ?_⟩
      · rw [hsucc n b hlt, take_unreadBytes_succ n hlt, hrun]
      · rw [hoff, hnext]
        omega

theorem takes_readInto (n : Nat)
    (hn : b.mStartOffset.toNat + n ≤ b.mData.length)
    (hmax : b.mStartOffset.toNat + n ≤ uint32Max) :
    Takes (readInto n) n (b.unreadBytes.take n) b :=
  takes_loop rfl (fun _ _ h => run_bind_of_ok (run_read h)) n hn hmax

theorem takes_readArray (n : Nat)
    (hn : b.mStartOffset.toNat + n ≤ b.mData.length)
    (hmax : b.mStartOffset.toNat + n ≤ uint32Max) :
    Takes (readArray n) n (b.unreadBytes.take n) b :=
  takes_loop rfl (fun _ _ h => run_bind_of_ok (run_tryRead h)) n hn hmax

/-- Fewer bytes than asked for: they are all read, then it throws. -/
theorem fails_readInto (n : Nat)
    (hoff : b.mStartOffset.toNat ≤ b.mData.length)
    (hdata : b.mData.length ≤ uint32Max)
    (hn : b.mData.length < b.mStartOffset.toNat + n) :
    Fails (readInto n) b := by
  induction n generalizing b with
  | zero => omega
  | succ n ih =>
      rw [readInto]
      by_cases hlt : b.mStartOffset.toNat < b.mData.length
      · have hnext := toNat_offset_add_one (b := b) (by omega)
        have hone : Takes read 1 b.mData[b.mStartOffset.toNat] b :=
          ⟨_, run_read hlt, rfl, hnext⟩
        apply hone.bind_fails
        intro b₁ hdata₁ hoff₁
        have hrest := @ih b₁ (by rw [hdata₁]; omega) (by rw [hdata₁]; omega)
          (by rw [hdata₁]; omega)
        exact hrest.bind _
      · have hend : b.mStartOffset.toNat = b.mData.length := by omega
        have hread : Fails read b :=
          ⟨_, b, run_read_end (by simp [hend]), rfl, hend⟩
        exact hread.bind _

theorem takes_readArray_short (n : Nat)
    (hoff : b.mStartOffset.toNat ≤ b.mData.length)
    (hdata : b.mData.length ≤ uint32Max)
    (hn : b.mData.length ≤ b.mStartOffset.toNat + n) :
    Takes (readArray n) (b.mData.length - b.mStartOffset.toNat)
      b.unreadBytes b := by
  have hb : unread.holds b b.unreadBytes := ⟨hoff, hdata, rfl⟩
  have hl : b.unreadBytes.length ≤ n := by
    rw [unreadBytes, List.length_drop]
    omega
  obtain ⟨b₁, hrun, hb₁⟩ := run_readArray_short hb hl
  have hsame : b₁.mData = b.mData := (keeps_data_readArray n).of_ok hrun
  obtain ⟨hoff₁, -, hnil⟩ := hb₁
  rw [List.drop_eq_nil_iff] at hnil
  rw [hsame] at hoff₁ hnil
  exact ⟨b₁, hrun, hsame, by omega⟩

-- =============================================================== extractions

variable (host : ByteOrder)

/-- The bytes an extraction takes off `l`. -/
def ValueType.need : ValueType → List UInt8 → Nat
  | .string, l => 2 + ofLe (l.take 2)
  | t, _ => t.width

/-- The value these bytes are. -/
def ValueType.decode : ValueType → List UInt8 → Value
  | .int8, l => .int8 (UInt8.ofNat (ofLe l)).toInt8
  | .uint8, l => .uint8 (UInt8.ofNat (ofLe l))
  | .int16, l => .int16 (UInt16.ofNat (ofLe l)).toInt16
  | .uint16, l => .uint16 (UInt16.ofNat (ofLe l))
  | .int32, l => .int32 (UInt32.ofNat (ofLe l)).toInt32
  | .uint32, l => .uint32 (UInt32.ofNat (ofLe l))
  | .int64, l => .int64 (UInt64.ofNat (ofLe l)).toInt64
  | .uint64, l => .uint64 (UInt64.ofNat (ofLe l))
  | .float, l => .float (UInt32.ofNat (ofLe l))
  | .double, l => .double (UInt64.ofNat (ofLe l))
  | .string, l => .string (l.drop 2)

theorem ValueType.need_eq {t : ValueType} (h : t ≠ .string)
    (l : List UInt8) : t.need l = t.width := by
  cases t with
  | string => exact absurd rfl h
  | _ => rfl

theorem ValueType.need_pos (t : ValueType) (l : List UInt8) :
    0 < t.need l := by
  cases t with
  | string =>
      show 0 < 2 + ofLe (l.take 2)
      omega
  | _ => exact Nat.succ_pos _

theorem takes_read (hn : b.mStartOffset.toNat + 1 ≤ b.mData.length)
    (hmax : b.mStartOffset.toNat + 1 ≤ uint32Max) :
    Takes read 1 (UInt8.ofNat (ofLe (b.unreadBytes.take 1))) b := by
  have hbyte : UInt8.ofNat (ofLe (b.unreadBytes.take 1))
      = b.mData[b.mStartOffset.toNat] := by
    rw [take_unreadBytes_succ 0 hn]
    simp [ofLe]
  rw [hbyte]
  exact ⟨_, run_read hn, rfl, toNat_offset_add_one hmax⟩

theorem takes_getInt (n : Nat)
    (hn : b.mStartOffset.toNat + n ≤ b.mData.length)
    (hmax : b.mStartOffset.toNat + n ≤ uint32Max) :
    Takes (getInt host n) n (ofLe (b.unreadBytes.take n)) b := by
  have hlen : (b.unreadBytes.take n).length = n := by
    rw [List.length_take, unreadBytes, List.length_drop]
    omega
  have hload := Endian.letoh_load host (b.unreadBytes.take n)
  rw [hlen] at hload
  rw [← hload]
  exact (takes_readInto n hn hmax).map _

/-- The length a string's first two bytes say. -/
theorem toNat_stringLength (l : List UInt8) :
    (UInt16.ofNat (ofLe (l.take 2))).toNat = ofLe (l.take 2) := by
  apply toNat_length
  have hlt := Endian.ofLe_lt (l.take 2)
  have hle : (l.take 2).length ≤ 2 := List.length_take_le 2 l
  have hpow : 256 ^ (l.take 2).length ≤ 256 ^ 2 :=
    Nat.pow_le_pow_right (by decide) hle
  have hmax : uint16Max = 65535 := rfl
  omega

/-- The two bytes of a string's length. -/
theorem takes_length (hn : b.mStartOffset.toNat + 2 ≤ b.mData.length)
    (hmax : b.mStartOffset.toNat + 2 ≤ uint32Max) :
    Takes (getUInt16 host) 2 (UInt16.ofNat (ofLe (b.unreadBytes.take 2))) b :=
  (takes_getInt host 2 hn hmax).map _

theorem takes_getString
    (hn : b.mStartOffset.toNat + (2 + ofLe (b.unreadBytes.take 2))
      ≤ b.mData.length)
    (hmax : b.mStartOffset.toNat + (2 + ofLe (b.unreadBytes.take 2))
      ≤ uint32Max) :
    Takes (getString host) (2 + ofLe (b.unreadBytes.take 2))
      ((b.unreadBytes.drop 2).take (ofLe (b.unreadBytes.take 2))) b := by
  apply (takes_length host (by omega) (by omega)).bind
  intro b₁ hdata hoff
  have harr := takes_readArray (b := b₁) (ofLe (b.unreadBytes.take 2))
    (by rw [hdata]; omega) (by omega)
  have hunread : b₁.unreadBytes = b.unreadBytes.drop 2 := by
    rw [unreadBytes, hdata, hoff, unreadBytes, List.drop_drop]
  have hlen : ((b.unreadBytes.drop 2).take
      (ofLe (b.unreadBytes.take 2))).length = ofLe (b.unreadBytes.take 2) := by
    rw [List.length_take, List.length_drop, unreadBytes, List.length_drop]
    rw [unreadBytes] at hn
    omega
  rw [hunread] at harr
  rw [toNat_stringLength]
  show Takes _ (_ + 0) _ _
  apply harr.bind
  intro b₂ _ _
  rw [if_neg (not_not_intro hlen.symm)]
  exact takes_pure _

/-- The length is there, the characters are not all. -/
theorem fails_getString (hoff : b.mStartOffset.toNat ≤ b.mData.length)
    (hdata : b.mData.length ≤ uint32Max)
    (hn : b.mData.length
      < b.mStartOffset.toNat + (2 + ofLe (b.unreadBytes.take 2))) :
    Fails (getString host) b := by
  unfold getString
  by_cases htwo : b.mStartOffset.toNat + 2 ≤ b.mData.length
  · apply (takes_length host htwo (by omega)).bind_fails
    intro b₁ hdata₁ hoff₁
    rw [toNat_stringLength]
    have hshort := takes_readArray_short (b := b₁)
      (ofLe (b.unreadBytes.take 2)) (by rw [hdata₁]; omega)
      (by rw [hdata₁]; omega) (by rw [hdata₁]; omega)
    apply hshort.bind_fails
    intro b₂ hdata₂ hoff₂
    have hlen : b₁.unreadBytes.length
        = b.mData.length - (b.mStartOffset.toNat + 2) := by
      rw [unreadBytes, List.length_drop, hdata₁, hoff₁]
    rw [if_pos (by omega)]
    exact ⟨_, b₂, rfl, rfl, by rw [hoff₂, hdata₂, hdata₁]; omega⟩
  · exact (((fails_readInto 2 hoff hdata (by omega)).bind _).bind _).bind _

/-- So many bytes there are, and the offset counts them. -/
theorem takes_get (t : ValueType)
    (hn : b.mStartOffset.toNat + t.need b.unreadBytes ≤ b.mData.length)
    (hmax : b.mStartOffset.toNat + t.need b.unreadBytes ≤ uint32Max) :
    Takes (t.get host) (t.need b.unreadBytes)
      (t.decode (b.unreadBytes.take (t.need b.unreadBytes))) b := by
  cases t with
  | int8 => exact ((takes_read hn hmax).map _).map _
  | uint8 => exact (takes_read hn hmax).map _
  | int16 => exact ((takes_getInt host 2 hn hmax).map _).map _
  | uint16 => exact ((takes_getInt host 2 hn hmax).map _).map _
  | int32 => exact ((takes_getInt host 4 hn hmax).map _).map _
  | uint32 => exact ((takes_getInt host 4 hn hmax).map _).map _
  | int64 => exact ((takes_getInt host 8 hn hmax).map _).map _
  | uint64 => exact ((takes_getInt host 8 hn hmax).map _).map _
  | float => exact ((takes_getInt host 4 hn hmax).map _).map _
  | double => exact ((takes_getInt host 8 hn hmax).map _).map _
  | string =>
      have hget := (takes_getString host hn hmax).map Value.string
      simp only [ValueType.need, ValueType.decode, List.drop_take,
        Nat.add_sub_cancel_left]
      exact hget

/-- So many bytes there are not. -/
theorem fails_get (t : ValueType)
    (hoff : b.mStartOffset.toNat ≤ b.mData.length)
    (hdata : b.mData.length ≤ uint32Max)
    (hn : b.mData.length < b.mStartOffset.toNat + t.need b.unreadBytes) :
    Fails (t.get host) b := by
  apply ValueType.get_rule host (fun _ m => Fails m b)
    (fun h f => h.bind _) t
  · intro hone
    have hne : t ≠ .string := by
      rintro rfl
      cases hone
    rw [ValueType.need_eq hne, hone] at hn
    have hend : b.mStartOffset.toNat = b.mData.length := by omega
    exact ⟨_, b, run_read_end (by simp [hend]), rfl, hend⟩
  · intro hne
    rw [ValueType.need_eq hne] at hn
    exact (fails_readInto t.width hoff hdata hn).bind _
  · rintro rfl
    exact fails_getString host hoff hdata hn

-- ============================================== more bytes than offsets

theorem returns_tryRead : Returns (fun v => v.isSome) tryRead :=
  fun _ hlong => ⟨_, _, run_tryRead (offset_lt_of_long hlong), rfl, rfl⟩

theorem returns_readInto (n : Nat) : Returns (fun _ => True) (readInto n) := by
  induction n with
  | zero => exact returns_pure trivial
  | succ n ih =>
      rw [readInto]
      apply returns_read.bind
      intro v _
      exact ih.map _

theorem returns_readArray (n : Nat) :
    Returns (fun bs => bs.length = n) (readArray n) := by
  induction n with
  | zero => exact returns_pure rfl
  | succ n ih =>
      rw [readArray]
      apply returns_tryRead.bind
      intro v hv
      obtain ⟨v, rfl⟩ := Option.isSome_iff_exists.mp hv
      apply ih.bind
      intro bs hbs
      exact returns_pure (by rw [List.length_cons, hbs])

theorem returns_getInt (n : Nat) : Returns (fun _ => True) (getInt host n) :=
  (returns_readInto n).map _

theorem returns_getString : Returns (fun _ => True) (getString host) := by
  unfold getString
  apply ((returns_getInt host 2).map UInt16.ofNat).bind
  intro length _
  apply (returns_readArray length.toNat).bind
  intro arr harr
  rw [if_neg (not_not_intro harr.symm)]
  exact returns_pure trivial

/-- No extraction throws, whatever is left. -/
theorem returns_get (t : ValueType) :
    Returns (fun _ => True) (t.get host) := by
  apply ValueType.get_rule host (fun _ m => Returns (fun _ => True) m)
    (fun h f => h.map f) t
  · exact fun _ => returns_read
  · exact fun _ => returns_getInt host t.width
  · exact fun _ => returns_getString host

-- ========================================================= whole sequences

/-- One after the other, all of them throw. -/
def AllThrow : List ValueType → PacketBuffer → Prop
  | [], _ => True
  | t :: ts, b => ∃ what b', (t.get host).run b = .error (.runtimeError what) b'
      ∧ AllThrow ts b'

/-- Each extraction succeeds if so many bytes are unread as it needs, on
these bytes and taking exactly them. Otherwise it throws, everything is
read, and all the later ones throw. -/
def ExtractsExactly : List ValueType → PacketBuffer → Prop
  | [], _ => True
  | t :: ts, b =>
      if t.need b.unreadBytes ≤ b.unreadBytes.length then
        ∃ b', (t.get host).run b
            = .ok (t.decode (b.unreadBytes.take (t.need b.unreadBytes))) b'
          ∧ b'.mData = b.mData
          ∧ b'.mStartOffset.toNat
            = b.mStartOffset.toNat + t.need b.unreadBytes
          ∧ ExtractsExactly ts b'
      else
        ∃ what b', (t.get host).run b = .error (.runtimeError what) b'
          ∧ b'.mData = b.mData
          ∧ b'.mStartOffset.toNat = b.mData.length
          ∧ AllThrow host ts b'

/-- The bytes the extractions need, each from where the one before it
left off. -/
def demand : List ValueType → List UInt8 → Nat
  | [], _ => 0
  | t :: ts, l => t.need l + demand ts (l.drop (t.need l))

theorem length_unreadBytes (b : PacketBuffer) :
    b.unreadBytes.length = b.mData.length - b.mStartOffset.toNat := by
  rw [unreadBytes, List.length_drop]

/-- What is unread after an extraction. -/
theorem unreadBytes_of_takes (hdata : b'.mData = b.mData)
    (hoff : b'.mStartOffset.toNat = b.mStartOffset.toNat + n) :
    b'.unreadBytes = b.unreadBytes.drop n := by
  rw [unreadBytes, hdata, hoff, unreadBytes, List.drop_drop]

/-- Everything is read. -/
theorem allThrow_of_end (ts : List ValueType)
    (hend : b.mStartOffset.toNat = b.mData.length)
    (hdata : b.mData.length ≤ uint32Max) : AllThrow host ts b := by
  induction ts generalizing b with
  | nil => exact trivial
  | cons t ts ih =>
      have hneed := t.need_pos b.unreadBytes
      obtain ⟨what, b', hrun, hsame, hoff⟩ :=
        fails_get host t (Nat.le_of_eq hend) hdata (by omega)
      refine ⟨what, b', hrun, ih ?_ ?_⟩
      · rw [hoff, hsame]
      · rw [hsame]
        exact hdata

/-- The offset counts every byte of the buffer, or every byte that is
asked for. -/
def Counted (ts : List ValueType) (b : PacketBuffer) : Prop :=
  b.mData.length ≤ uint32Max
    ∨ b.mStartOffset.toNat + demand ts b.unreadBytes ≤ uint32Max

theorem extractsExactly_of_counted (ts : List ValueType)
    (hoff : b.mStartOffset.toNat ≤ b.mData.length) (h : Counted ts b) :
    ExtractsExactly host ts b := by
  induction ts generalizing b with
  | nil => exact trivial
  | cons t ts ih =>
      have hlen := length_unreadBytes b
      have hdemand : demand (t :: ts) b.unreadBytes = t.need b.unreadBytes
        + demand ts (b.unreadBytes.drop (t.need b.unreadBytes)) := rfl
      unfold ExtractsExactly
      by_cases hneed : t.need b.unreadBytes ≤ b.unreadBytes.length
      · rw [if_pos hneed]
        have hmax : b.mStartOffset.toNat + t.need b.unreadBytes
            ≤ uint32Max := by
          rcases h with h | h
          · omega
          · omega
        obtain ⟨b', hrun, hsame, hoff'⟩ :=
          takes_get host t (by omega) hmax
        refine ⟨b', hrun, hsame, hoff', ih (by rw [hsame]; omega) ?_⟩
        rw [Counted, hsame, unreadBytes_of_takes hsame hoff', hoff']
        rcases h with h | h
        · exact .inl h
        · exact .inr (by omega)
      · rw [if_neg hneed]
        have hdata : b.mData.length ≤ uint32Max := by
          rcases h with h | h
          · exact h
          · omega
        obtain ⟨what, b', hrun, hsame, hend⟩ :=
          fails_get host t hoff hdata (by omega)
        refine ⟨what, b', hrun, hsame, hend, ?_⟩
        apply allThrow_of_end host ts
        · rw [hend, hsame]
        · rw [hsame]
          exact hdata

/-- Where the offset does not reach, an extraction of bytes that are
there goes on at the front, and one of bytes that are not returns. -/
theorem counted_of_extractsExactly (ts : List ValueType)
    (h : ExtractsExactly host ts b) : Counted ts b := by
  induction ts generalizing b with
  | nil =>
      have hlt := b.mStartOffset.toNat_lt
      have hmax : uint32Max = 4294967295 := rfl
      exact .inr (show _ + 0 ≤ _ by omega)
  | cons t ts ih =>
      by_cases hlong : b.mData.length ≤ uint32Max
      · exact .inl hlong
      · unfold ExtractsExactly at h
        split at h
        · obtain ⟨b', -, hsame, hoff', hrest⟩ := h
          have hcounted := ih hrest
          rw [Counted, hsame, unreadBytes_of_takes hsame hoff', hoff']
            at hcounted
          have hsum := hcounted.resolve_left hlong
          exact .inr (by rw [demand]; omega)
        · obtain ⟨what, b', hrun, -⟩ := h
          obtain ⟨v, b₁, hrun', -⟩ :=
            returns_get host t b (Nat.lt_of_not_le hlong)
          rw [hrun'] at hrun
          cases hrun

/-- Extraction is exact and its failure sticks, if and only if the
buffer is no longer than 2³² − 1 bytes, or the extractions together do
not need more than are in front of that. -/
theorem extractsExactly_iff (ts : List ValueType) {b : PacketBuffer}
    (hoff : b.mStartOffset.toNat ≤ b.mData.length) :
    ExtractsExactly host ts b ↔ Counted ts b :=
  ⟨counted_of_extractsExactly host ts, extractsExactly_of_counted host ts hoff⟩

/-- A number and a string that is one character short. -/
theorem extractsExactly_cut_string :
    ExtractsExactly .little [.uint16, .string, .uint8]
      ⟨[7, 0, 2, 0, 65], 0⟩ :=
  (extractsExactly_iff .little [.uint16, .string, .uint8]
    (b := ⟨[7, 0, 2, 0, 65], 0⟩) (Nat.zero_le _)).mpr
    (.inl (show (5 : Nat) ≤ uint32Max by decide))

/-- With the offset at its limit and bytes behind it, none is counted. -/
theorem not_extractsExactly_of_limit (t : ValueType) (ts : List ValueType)
    (hlong : uint32Max < b.mData.length)
    (hoff : b.mStartOffset.toNat = uint32Max) :
    ¬ ExtractsExactly host (t :: ts) b := by
  intro h
  have hneed := t.need_pos b.unreadBytes
  rcases counted_of_extractsExactly host _ h with h | h
  · omega
  · rw [demand] at h
    omega

/-- 2³² bytes, as `resize` makes them, all but the last one read. -/
def longBuffer : PacketBuffer :=
  { mData := List.replicate (uint32Max + 1) 0, mStartOffset := 4294967295 }

theorem length_longBuffer : longBuffer.mData.length = uint32Max + 1 :=
  List.length_replicate

theorem offset_longBuffer : longBuffer.mStartOffset.toNat = uint32Max := rfl

/-- Of one unread byte two are extracted. -/
theorem longBuffer_wraps :
    longBuffer.unreadBytes.length = 1
      ∧ (∃ v b', (ValueType.uint16.get .little).run longBuffer = .ok v b')
      ∧ ¬ ExtractsExactly .little [.uint16] longBuffer := by
  have hlong : uint32Max < longBuffer.mData.length := by
    rw [length_longBuffer]
    omega
  refine ⟨?_, ?_, ?_⟩
  · rw [length_unreadBytes, length_longBuffer, offset_longBuffer]
    omega
  · obtain ⟨v, b', hrun, -⟩ := returns_get .little .uint16 longBuffer hlong
    exact ⟨v, b', hrun⟩
  · exact not_extractsExactly_of_limit .little .uint16 [] hlong
      offset_longBuffer

end PacketBuffer

end AWEnginePacket
