/-
The locale codec on any bytes.

Whatever locale is encoded, four bytes are written, and decoding them
gives its canonical form; whatever four bytes are decoded, the locale is
valid and its own canonical form (`locale_normalises`).

# Too few bytes

A language code that is not two letters makes the decoder skip the
country code, and `Skip` does not look whether there is one. So a buffer
with two or three unread bytes is decoded, and its offset passes the
end, if and only if they do not begin with two letters
(`takesFour_iff`).
-/
import AWEnginePacket.Proofs.Starving

namespace AWEnginePacket

open Effect
open QueueCodec
open PacketBuffer (unread)

-- ========================================================== normalisation

namespace LocaleDoubleChar

theorem isValid_of_letters {d : LocaleDoubleChar} (h : d.letters = true) :
    d.isValid = true := by
  have htest := d.toBool_and_isValid
  rw [h, Bool.and_eq_true] at htest
  exact htest.2

theorem canonical_isValid (upper : Bool) (d : LocaleDoubleChar) :
    (d.canonical upper).isValid = true := by
  cases h : d.letters with
  | false =>
      rw [canonical_of_not_letters upper h]
      rfl
  | true => exact isValid_of_letters (canonical_of_letters upper h).1

end LocaleDoubleChar

namespace LocaleInfo

/-- A canonical locale is valid. -/
theorem canonical_isValid (locale : LocaleInfo) :
    locale.canonical.isValid = true := by
  cases hlang : locale.languageCode.letters with
  | false =>
      rw [canonical_of_false hlang]
      rfl
  | true =>
      have hletters :=
        (LocaleDoubleChar.canonical_of_letters false hlang).1
      have htest := LocaleDoubleChar.toBool_and_isValid
        (locale.languageCode.canonical false)
      rw [hletters, Bool.and_eq_true] at htest
      rw [canonical_of_true hlang, isValid, htest.1, htest.2,
        LocaleDoubleChar.canonical_isValid]
      rfl

/-- Four bytes are written for every locale, and decoded to its
canonical form. Any four bytes are decoded to a valid locale, which
comes back unchanged when it is encoded and decoded again. -/
theorem locale_normalises :
    (∀ locale : LocaleInfo, ∃ bytes, bytes.length = 4
        ∧ Emits unread locale.put bytes
        ∧ Consumes unread get bytes locale.canonical)
      ∧ ∀ a b c d : UInt8, ∃ locale, Consumes unread get [a, b, c, d] locale
        ∧ locale.isValid = true
        ∧ ∃ bytes, bytes.length = 4 ∧ Emits unread locale.put bytes
          ∧ Consumes unread get bytes locale := by
  refine ⟨fun locale => ?_, fun a b c d => ?_⟩
  · exact ⟨_, rfl, locale.emits_put, locale.consumes_get⟩
  · have hget := consumes_get_toBytes ⟨⟨a, b⟩, ⟨c, d⟩⟩
    refine ⟨_, hget, canonical_isValid _, _, rfl, emits_put _, ?_⟩
    exact (consumes_get _).of_eq rfl (canonical_canonical _)

-- ========================================================= too few bytes

variable {b b' : PacketBuffer} {l : List UInt8} {x y : UInt8}

/-- Two bytes at least. -/
theorem exists_two (h : ¬ l.length < 2) : ∃ x y rest, l = x :: y :: rest := by
  rcases l with _ | ⟨x, _ | ⟨y, rest⟩⟩
  · exact absurd Nat.two_pos h
  · exact absurd Nat.one_lt_two h
  · exact ⟨x, y, rest, rfl⟩

/-- Two bytes are read where there are fewer. -/
theorem starves_two {α : Type} {k : UInt8 → UInt8 → BufferM α}
    (h : l.length < 2) :
    Starves unread Fault.Defined
      (PacketBuffer.read >>= fun x => PacketBuffer.read >>= k x) l := by
  rcases l with _ | ⟨x, _ | ⟨y, rest⟩⟩
  · exact PacketBuffer.starves_read.bind
  · exact (PacketBuffer.consumes_read x).bind_starves
      PacketBuffer.starves_read.bind
  · simp only [List.length_cons] at h
    omega

/-- Without a language code there is nothing to decide. -/
theorem starves_get_short (h : l.length < 2) :
    Starves unread Fault.Defined get l := starves_two h

/-- Behind a language the country code is read. -/
theorem starves_get_letters (hletters : LocaleDoubleChar.letters ⟨x, y⟩ = true)
    (h : l.length < 2) : Starves unread Fault.Defined get (x :: y :: l) := by
  refine (PacketBuffer.consumes_read x).bind_starves
    ((PacketBuffer.consumes_read y).bind_starves ?_)
  simp only [LocaleDoubleChar.toBool_and_isValid, hletters, if_true]
  exact starves_two h

/-- A read that returned has taken a byte that was there. -/
theorem of_run_read {v : UInt8} (h : PacketBuffer.read.run b = .ok v b') :
    b.mData[b.mStartOffset.toNat]? = some v
      ∧ b' = { b with mStartOffset := b.mStartOffset + 1 } := by
  unfold PacketBuffer.read at h
  rw [EStateM.run_bind, EStateM.run_get] at h
  cases hv : b.mData[b.mStartOffset.toNat]? with
  | none =>
      simp only [hv] at h
      cases h
  | some w =>
      simp only [hv] at h
      cases h
      exact ⟨rfl, rfl⟩

/-- Decoding that returned has moved the offset by four, whatever was
there. -/
theorem of_run_get {locale : LocaleInfo} (h : get.run b = .ok locale b') :
    b' = { b with mStartOffset := b.mStartOffset + 4 } := by
  have hadd (o : UInt32) : o + 1 + 1 + 1 + 1 = o + 4 := by
    rw [UInt32.add_assoc, UInt32.add_assoc, UInt32.add_assoc]
    rfl
  have hskip (o : UInt32) : o + 1 + 1 + (2 : UInt8).toUInt32 = o + 4 := by
    rw [UInt32.add_assoc, UInt32.add_assoc]
    rfl
  unfold get at h
  obtain ⟨x, b₁, h₁, h⟩ := of_run_bind_ok h
  obtain ⟨y, b₂, h₂, h⟩ := of_run_bind_ok h
  obtain ⟨-, rfl⟩ := of_run_read h₁
  obtain ⟨-, rfl⟩ := of_run_read h₂
  dsimp only at h
  split at h
  · obtain ⟨c, b₃, h₃, h⟩ := of_run_bind_ok h
    obtain ⟨d, b₄, h₄, h⟩ := of_run_bind_ok h
    obtain ⟨-, rfl⟩ := of_run_read h₃
    obtain ⟨-, rfl⟩ := of_run_read h₄
    dsimp only at h
    split at h
    · cases h
      simp only [hadd]
    · cases h
      simp only [hadd]
  · cases h
    simp only [hskip]

/-- Any other two bytes are decoded, whether the two behind them are
there or not. -/
theorem run_get_skips (hletters : LocaleDoubleChar.letters ⟨x, y⟩ = false)
    (hb : unread.holds b (x :: y :: l)) :
    ∃ b', get.run b = .ok {} b' := by
  obtain ⟨b₁, h₁, hb₁⟩ := PacketBuffer.consumes_read x b (y :: l) hb
  obtain ⟨b₂, h₂, -⟩ := PacketBuffer.consumes_read y b₁ l hb₁
  unfold get
  rw [run_bind_of_ok h₁, run_bind_of_ok h₂]
  simp only [LocaleDoubleChar.toBool_and_isValid, hletters]
  exact ⟨_, rfl⟩

/-- In more than 2³² − 1 bytes the offset is always within. -/
theorem returns_get : PacketBuffer.Returns (fun _ => True) get := by
  have hread := PacketBuffer.returns_read
  have hskip : PacketBuffer.Returns (fun _ => True) (PacketBuffer.skip 2) :=
    fun b _ => ⟨⟨⟩, _, rfl, rfl, trivial⟩
  unfold get
  apply hread.bind
  intro left _
  apply hread.bind
  intro right _
  dsimp only
  split
  · apply hread.bind
    intro left _
    apply hread.bind
    intro right _
    split
    · exact PacketBuffer.returns_pure trivial
    · exact PacketBuffer.returns_pure trivial
  · exact hskip.map _

/-- Decoding has thrown, or has taken four bytes that were there; either
way the offset has not passed the end. -/
def TakesFour (b : PacketBuffer) : Prop :=
  (∀ locale b', get.run b = .ok locale b' → b'.mData = b.mData
      ∧ b'.mStartOffset.toNat = b.mStartOffset.toNat + 4
      ∧ b'.mStartOffset.toNat ≤ b'.mData.length)
    ∧ ∀ e b', get.run b = .error e b' →
        b'.mStartOffset.toNat ≤ b'.mData.length

/-- What is missing is missed by a `Read`: there is no language code, or
it is two letters, or all four bytes are there. The offset counts them
in 32 bits. -/
def Checked (b : PacketBuffer) : Prop :=
  (b.mData.length < b.mStartOffset.toNat + 2
      ∨ LocaleDoubleChar.letters ⟨b.byteAt 0, b.byteAt 1⟩ = true
      ∨ b.mStartOffset.toNat + 4 ≤ b.mData.length)
    ∧ (b.mData.length ≤ uint32Max ∨ b.mStartOffset.toNat + 4 ≤ uint32Max)

/-- Decoding that returned has taken four bytes if they were there. -/
theorem takesFour_iff_of_ok {locale : LocaleInfo}
    (h : get.run b = .ok locale b') :
    TakesFour b ↔ b.mStartOffset.toNat + 4 ≤ b.mData.length
      ∧ b.mStartOffset.toNat + 4 ≤ uint32Max := by
  have hmax : uint32Max = 4294967295 := rfl
  have hb' := of_run_get h
  have hadd : (b.mStartOffset + 4).toNat
      = (b.mStartOffset.toNat + 4) % 2 ^ 32 := UInt32.toNat_add _ _
  constructor
  · intro hfour
    obtain ⟨-, hoff, hle⟩ := hfour.1 locale b' h
    rw [hb'] at hoff hle
    simp only [hadd] at hoff hle
    omega
  · rintro ⟨hle, hlong⟩
    refine ⟨fun locale₁ b₁ h₁ => ?_, fun e b₁ h₁ => ?_⟩
    · rw [h] at h₁
      cases h₁
      rw [hb']
      refine ⟨rfl, ?_, ?_⟩
      · show (b.mStartOffset + 4).toNat = b.mStartOffset.toNat + 4
        omega
      · show (b.mStartOffset + 4).toNat ≤ b.mData.length
        omega
    · rw [h] at h₁
      cases h₁

/-- Decoding that starved has thrown, and the buffer is sound. -/
theorem takesFour_of_starves (h : Starves unread Fault.Defined get l)
    (hb : unread.holds b l) : TakesFour b := by
  obtain ⟨e, b', l', hrun, -, hb'⟩ := h b hb
  refine ⟨fun locale b₁ h₁ => ?_, fun e₁ b₁ h₁ => ?_⟩
  · rw [hrun] at h₁
    cases h₁
  · rw [hrun] at h₁
    cases h₁
    exact hb'.1

/-- Two or three bytes: the language decides. -/
theorem takesFour_iff_short {rest : List UInt8}
    (hb : unread.holds b (x :: y :: rest)) (hrest : rest.length < 2)
    (hlong : b.mData.length ≤ uint32Max)
    (htwo : b.mStartOffset.toNat + 2 ≤ b.mData.length)
    (hfour : b.mData.length < b.mStartOffset.toNat + 4) :
    TakesFour b ↔ (b.mData.length < b.mStartOffset.toNat + 2
        ∨ LocaleDoubleChar.letters ⟨x, y⟩ = true
        ∨ b.mStartOffset.toNat + 4 ≤ b.mData.length)
      ∧ (b.mData.length ≤ uint32Max
        ∨ b.mStartOffset.toNat + 4 ≤ uint32Max) := by
  cases hletters : LocaleDoubleChar.letters ⟨x, y⟩ with
  | true =>
      have hstarves := starves_get_letters hletters hrest
      exact iff_of_true (takesFour_of_starves hstarves hb)
        ⟨.inr (.inl rfl), .inl hlong⟩
  | false =>
      obtain ⟨b', hrun⟩ := run_get_skips hletters hb
      refine (takesFour_iff_of_ok hrun).trans (iff_of_false ?_ ?_)
      · rintro ⟨hle, -⟩
        omega
      · rintro ⟨hshort | hfalse | hle, -⟩
        · omega
        · cases hfalse
        · omega

/-- Decoding a locale throws or takes four bytes that are there, from
every buffer whose offset lies in its data, if and only if what is
missing is not skipped. -/
theorem takesFour_iff (h : b.mStartOffset.toNat ≤ b.mData.length) :
    TakesFour b ↔ Checked b := by
  by_cases hlong : b.mData.length ≤ uint32Max
  · obtain ⟨l, hb⟩ : ∃ l, unread.holds b l := ⟨_, h, hlong, rfl⟩
    have hlen : l.length = b.mData.length - b.mStartOffset.toNat := by
      rw [← hb.2.2, List.length_drop]
    have hbyte (i : Nat) : b.byteAt i = l.getD i 0 := by
      rw [PacketBuffer.byteAt, List.getD_eq_getElem?_getD,
        List.getD_eq_getElem?_getD, ← hb.2.2, List.getElem?_drop]
    unfold Checked
    rw [hbyte, hbyte]
    by_cases hshort : l.length < 2
    · have hfour := takesFour_of_starves (starves_get_short hshort) hb
      exact iff_of_true hfour ⟨.inl (by omega), .inl hlong⟩
    · obtain ⟨x, y, rest, rfl⟩ := exists_two hshort
      simp only [List.length_cons] at hlen
      by_cases hrest : rest.length < 2
      · exact takesFour_iff_short hb hrest hlong (by omega) (by omega)
      · obtain ⟨c, d, rest, rfl⟩ := exists_two hrest
        simp only [List.length_cons] at hlen
        obtain ⟨b', hrun, -⟩ :=
          consumes_get_toBytes ⟨⟨x, y⟩, ⟨c, d⟩⟩ b rest hb
        have hfour : b.mStartOffset.toNat + 4 ≤ b.mData.length := by omega
        refine (takesFour_iff_of_ok hrun).trans (iff_of_true ?_ ?_)
        · exact ⟨hfour, by omega⟩
        · exact ⟨.inr (.inr hfour), .inl hlong⟩
  · -- the offset never reaches the end, but may come round
    obtain ⟨locale, b', hrun, -⟩ := returns_get b (Nat.lt_of_not_le hlong)
    refine (takesFour_iff_of_ok hrun).trans ⟨?_, ?_⟩
    · rintro ⟨hle, hround⟩
      exact ⟨.inr (.inr hle), .inr hround⟩
    · rintro ⟨-, hround⟩
      have hround := hround.resolve_left hlong
      exact ⟨by omega, hround⟩

/-- Three bytes, a language and half a country: the code throws. -/
theorem takesFour_half : TakesFour ⟨[101, 110, 85], 0⟩ :=
  (takesFour_iff (b := ⟨[101, 110, 85], 0⟩) (Nat.zero_le _)).mpr
    ⟨.inr (.inl rfl), .inl (by decide)⟩

/-- Two zeros and nothing behind them are decoded, and the offset is two
bytes past the end. -/
theorem two_zeros_overrun :
    get.run ⟨[0, 0], 0⟩ = .ok {} ⟨[0, 0], 4⟩ ∧ ¬ TakesFour ⟨[0, 0], 0⟩ := by
  have hrun : get.run ⟨[0, 0], 0⟩ = .ok {} ⟨[0, 0], 4⟩ := rfl
  refine ⟨hrun, fun hfour => ?_⟩
  obtain ⟨-, -, hle⟩ := hfour.1 _ _ hrun
  have hle : (4 : Nat) ≤ 2 := hle
  omega

end LocaleInfo

end AWEnginePacket
