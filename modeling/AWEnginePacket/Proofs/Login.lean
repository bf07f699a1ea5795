/-
The login packets' codecs, field by field and as a whole.

The locale codec normalises on both ends. `LocaleInfo.canonical` says
what it normalises to, in its own words: a language of two letters in
lower case, a country of two letters in upper case behind it, and
nothing otherwise. Encoding writes the four bytes of the canonical form
and decoding them gives that form back.

# What does not come back

A decoded game name is always the zero name, since the extraction
operator fills a copy. So an `Init` or a `ServerInfo` round-trips if
and only if its game name is the zero name; every other field comes
back, and the whole body is consumed.
-/
import AWEnginePacket.Proofs.Buffer

namespace AWEnginePacket

open Endian (ByteOrder leBytes)
open Effect
open QueueCodec
open PacketBuffer (unread)

-- ============================================================== letters

/-- An ASCII letter. -/
def isLetter (c : UInt8) : Bool := isUpper c || isLower c

/-- A letter in lower case. -/
def toLower (c : UInt8) : UInt8 := if isUpper c then c + 32 else c

/-- A letter in upper case. -/
def toUpper (c : UInt8) : UInt8 := if isLower c then c - 32 else c

private theorem le_iff (a b : UInt8) : decide (a ≤ b) = true ↔ a.toNat ≤ b.toNat := by
  rw [decide_eq_true_iff, UInt8.le_iff_toNat_le]

theorem isUpper_iff {c : UInt8} :
    isUpper c = true ↔ 65 ≤ c.toNat ∧ c.toNat ≤ 90 := by
  rw [isUpper, Bool.and_eq_true]
  exact and_congr (le_iff 65 c) (le_iff c 90)

theorem isLower_iff {c : UInt8} :
    isLower c = true ↔ 97 ≤ c.toNat ∧ c.toNat ≤ 122 := by
  rw [isLower, Bool.and_eq_true]
  exact and_congr (le_iff 97 c) (le_iff c 122)

theorem isLetter_iff {c : UInt8} :
    isLetter c = true ↔ 65 ≤ c.toNat ∧ c.toNat ≤ 90
      ∨ 97 ≤ c.toNat ∧ c.toNat ≤ 122 := by
  rw [isLetter, Bool.or_eq_true, isUpper_iff, isLower_iff]

/-- A letter in the asked-for case. -/
def withCase (upper : Bool) (c : UInt8) : UInt8 :=
  if upper then toUpper c else toLower c

/-- The code's two one-sided tests decide the case of a letter. -/
theorem changeChar_eq {c : UInt8} (h : isLetter c = true) (upper : Bool) :
    LocaleDoubleChar.changeChar upper c = withCase upper c := by
  rw [isLetter_iff] at h
  cases upper with
  | true =>
      show (if c ≥ 97 then c - 32 else c) = if isLower c then c - 32 else c
      have hiff : c ≥ 97 ↔ isLower c = true := by
        rw [ge_iff_le, UInt8.le_iff_toNat_le, isLower_iff]
        show 97 ≤ c.toNat ↔ _
        omega
      simp only [hiff]
  | false =>
      show (if c ≤ 90 then c + 32 else c) = if isUpper c then c + 32 else c
      have hiff : c ≤ 90 ↔ isUpper c = true := by
        rw [UInt8.le_iff_toNat_le, isUpper_iff]
        show c.toNat ≤ 90 ↔ _
        omega
      simp only [hiff]

/-- Changing case keeps a letter a letter, and does it once. -/
theorem withCase_letter {c : UInt8} (h : isLetter c = true) (upper : Bool) :
    isLetter (withCase upper c) = true
      ∧ withCase upper (withCase upper c) = withCase upper c := by
  have hc := isLetter_iff.mp h
  cases upper with
  | true =>
      show isLetter (toUpper c) = true ∧ toUpper (toUpper c) = toUpper c
      cases hl : isLower c with
      | false =>
          have hup : toUpper c = c := by rw [toUpper, hl]; rfl
          rw [hup]
          exact ⟨h, hup⟩
      | true =>
          have hl' := isLower_iff.mp hl
          have hup : toUpper c = c - 32 := by rw [toUpper, hl]; rfl
          have hnat : (c - 32).toNat = c.toNat - 32 := by
            rw [UInt8.toNat_sub_of_le]
            · rfl
            · rw [UInt8.le_iff_toNat_le]
              show 32 ≤ c.toNat
              omega
          have hnot : isLower (c - 32) = false := by
            rw [← Bool.not_eq_true, isLower_iff, hnat]
            omega
          rw [hup]
          refine ⟨isLetter_iff.mpr (by rw [hnat]; omega), ?_⟩
          rw [toUpper, hnot]
          rfl
  | false =>
      show isLetter (toLower c) = true ∧ toLower (toLower c) = toLower c
      cases hu : isUpper c with
      | false =>
          have hlo : toLower c = c := by rw [toLower, hu]; rfl
          rw [hlo]
          exact ⟨h, hlo⟩
      | true =>
          have hu' := isUpper_iff.mp hu
          have hlo : toLower c = c + 32 := by rw [toLower, hu]; rfl
          have hnat : (c + 32).toNat = c.toNat + 32 := by
            rw [UInt8.toNat_add]
            show (c.toNat + 32) % 256 = c.toNat + 32
            omega
          have hnot : isUpper (c + 32) = false := by
            rw [← Bool.not_eq_true, isUpper_iff, hnat]
            omega
          rw [hlo]
          refine ⟨isLetter_iff.mpr (by rw [hnat]; omega), ?_⟩
          rw [toLower, hnot]
          rfl

-- ============================================================== locales

namespace LocaleDoubleChar

/-- Two letters. -/
def letters (d : LocaleDoubleChar) : Bool :=
  isLetter d.leftChar && isLetter d.rightChar

/-- Two letters in the asked-for case, or nothing. -/
def canonical (upper : Bool) (d : LocaleDoubleChar) : LocaleDoubleChar :=
  if d.letters then ⟨withCase upper d.leftChar, withCase upper d.rightChar⟩
  else {}

/-- The test both ends of the codec make. -/
theorem toBool_and_isValid (d : LocaleDoubleChar) :
    (d.toBool && d.isValid) = d.letters := by
  have hvalid : d.isValid
      = if d.leftChar = 0 ∧ d.rightChar = 0 then true else d.letters := by
    unfold isValid letters isLetter
    split
    · rfl
    · cases isUpper d.leftChar || isLower d.leftChar <;> rfl
  rw [hvalid]
  by_cases hz : d.leftChar = 0 ∧ d.rightChar = 0
  · rw [toBool, letters, hz.1, hz.2]
    rfl
  · have htoBool : d.toBool = true := by
      rw [toBool, Bool.or_eq_true, bne_iff_ne, bne_iff_ne]
      by_cases hl : d.leftChar = 0
      · exact .inr fun hr => hz ⟨hl, hr⟩
      · exact .inl hl
    rw [if_neg hz, htoBool, Bool.true_and]

theorem changeCase_eq (upper : Bool) (d : LocaleDoubleChar) :
    d.changeCase upper = d.canonical upper := by
  have htest := d.toBool_and_isValid
  unfold changeCase canonical
  cases hl : d.letters with
  | true =>
      rw [hl, Bool.and_eq_true] at htest
      rw [letters, Bool.and_eq_true] at hl
      rw [htest.1, htest.2, changeChar_eq hl.1, changeChar_eq hl.2]
      rfl
  | false =>
      rw [hl, Bool.and_eq_false_iff] at htest
      rcases htest with hb | hv
      · rw [hb]
        simp
      · rw [hv]
        simp

theorem canonical_of_not_letters (upper : Bool) {d : LocaleDoubleChar}
    (h : d.letters = false) : d.canonical upper = {} := by
  rw [canonical, h]
  rfl

theorem canonical_of_letters (upper : Bool) {d : LocaleDoubleChar}
    (h : d.letters = true) :
    (d.canonical upper).letters = true
      ∧ (d.canonical upper).canonical upper = d.canonical upper := by
  have hd : d.canonical upper
      = ⟨withCase upper d.leftChar, withCase upper d.rightChar⟩ := if_pos h
  rw [letters, Bool.and_eq_true] at h
  obtain ⟨hl, hl'⟩ := withCase_letter h.1 upper
  obtain ⟨hr, hr'⟩ := withCase_letter h.2 upper
  have hletters : (d.canonical upper).letters = true := by
    rw [hd, letters, hl, hr]
    rfl
  refine ⟨hletters, ?_⟩
  rw [canonical, if_pos hletters, hd, hl', hr']

end LocaleDoubleChar

namespace LocaleInfo

/-- The canonical form of a locale. -/
def canonical (locale : LocaleInfo) : LocaleInfo :=
  if locale.languageCode.letters then
    ⟨locale.languageCode.canonical false, locale.countryCode.canonical true⟩
  else {}

theorem canonical_of_false {locale : LocaleInfo}
    (h : locale.languageCode.letters = false) : locale.canonical = {} := by
  rw [canonical, h]
  rfl

theorem canonical_of_true {locale : LocaleInfo}
    (h : locale.languageCode.letters = true) :
    locale.canonical = ⟨locale.languageCode.canonical false,
      locale.countryCode.canonical true⟩ := if_pos h

/-- The four bytes of a locale as it stands. -/
def toBytes (locale : LocaleInfo) : List UInt8 :=
  [locale.languageCode.leftChar, locale.languageCode.rightChar,
    locale.countryCode.leftChar, locale.countryCode.rightChar]

/-- Encoding writes the canonical form. -/
theorem emits_put (locale : LocaleInfo) :
    Emits unread locale.put locale.canonical.toBytes := by
  have hfour (a b c d : UInt8) : Emits unread (do
      PacketBuffer.write a; PacketBuffer.write b
      PacketBuffer.write c; PacketBuffer.write d : BufferM PUnit)
      [a, b, c, d] :=
    (PacketBuffer.emits_write a).seq ((PacketBuffer.emits_write b).seq
      ((PacketBuffer.emits_write c).seq (PacketBuffer.emits_write d)))
  unfold put
  simp only [LocaleDoubleChar.toBool_and_isValid,
    LocaleDoubleChar.changeCase_eq]
  cases hlang : locale.languageCode.letters with
  | false =>
      rw [LocaleDoubleChar.canonical_of_not_letters false hlang,
        canonical_of_false hlang]
      exact hfour 0 0 0 0
  | true =>
      rw [(LocaleDoubleChar.canonical_of_letters false hlang).1,
        canonical_of_true hlang]
      cases hcountry : locale.countryCode.letters with
      | false =>
          rw [LocaleDoubleChar.canonical_of_not_letters true hcountry]
          exact hfour _ _ 0 0
      | true =>
          rw [(LocaleDoubleChar.canonical_of_letters true hcountry).1]
          exact hfour _ _ _ _

theorem consumes_skip_two (a b : UInt8) :
    Consumes unread (PacketBuffer.skip 2) [a, b] ⟨⟩ := by
  intro buf l hb
  obtain ⟨-, hb₁⟩ := PacketBuffer.unread_cons hb
  obtain ⟨-, hb₂⟩ := PacketBuffer.unread_cons hb₁
  refine ⟨_, rfl, ?_⟩
  have hadd : buf.mStartOffset + (2 : UInt8).toUInt32
      = buf.mStartOffset + 1 + 1 := by
    rw [UInt32.add_assoc]
    rfl
  show unread.holds ⟨buf.mData, buf.mStartOffset + (2 : UInt8).toUInt32⟩ l
  rw [hadd]
  exact hb₂

/-- Decoding a locale as it stands gives its canonical form. -/
theorem consumes_get_toBytes (locale : LocaleInfo) :
    Consumes unread get locale.toBytes locale.canonical := by
  unfold get
  refine (PacketBuffer.consumes_read _).bind
    ((PacketBuffer.consumes_read _).bind ?_)
  simp only [LocaleDoubleChar.toBool_and_isValid,
    LocaleDoubleChar.changeCase_eq]
  cases hlang : locale.languageCode.letters with
  | false =>
      rw [canonical_of_false hlang]
      exact (consumes_skip_two _ _).bind_pure
  | true =>
      rw [canonical_of_true hlang]
      refine (PacketBuffer.consumes_read _).bind
        ((PacketBuffer.consumes_read _).bind_nil ?_)
      cases hcountry : locale.countryCode.letters with
      | false =>
          rw [LocaleDoubleChar.canonical_of_not_letters true hcountry]
          exact consumes_pure _
      | true => exact consumes_pure _

/-- The canonical form is its own. -/
theorem canonical_canonical (locale : LocaleInfo) :
    locale.canonical.canonical = locale.canonical := by
  cases hlang : locale.languageCode.letters with
  | false =>
      rw [canonical_of_false hlang]
      rfl
  | true =>
      obtain ⟨hl, hl'⟩ := LocaleDoubleChar.canonical_of_letters false hlang
      rw [canonical_of_true hlang, canonical, if_pos hl, hl']
      cases hcountry : locale.countryCode.letters with
      | false =>
          rw [LocaleDoubleChar.canonical_of_not_letters true hcountry]
          rfl
      | true =>
          rw [(LocaleDoubleChar.canonical_of_letters true hcountry).2]

/-- Any four bytes are decoded to some locale. -/
theorem exists_consumes_get (a b c d : UInt8) :
    ∃ locale, Consumes unread get [a, b, c, d] locale :=
  ⟨_, consumes_get_toBytes ⟨⟨a, b⟩, ⟨c, d⟩⟩⟩

/-- Decoding the canonical form gives it back. -/
theorem consumes_get (locale : LocaleInfo) :
    Consumes unread get locale.canonical.toBytes locale.canonical := by
  have h := consumes_get_toBytes locale.canonical
  rwa [canonical_canonical] at h

end LocaleInfo

-- =========================================================== game names

namespace ProtocolGameName

/-- The eight bytes are taken, whatever becomes of them. -/
theorem consumes_get (gameName : ProtocolGameName) {inp : List UInt8}
    (h : inp.length = 8) : ∃ copy, Consumes unread gameName.get inp copy := by
  have hread := PacketBuffer.consumes_readArray inp
  rw [h] at hread
  exact ⟨_, hread.bind_pure⟩

theorem length_toList (gameName : ProtocolGameName) :
    gameName.charData.toList.length = 8 := gameName.charData.size_toArray

end ProtocolGameName

-- ============================================================= `Init`

/-- What one end writes, the other decodes: `write` returns and leaves a
body of an allowed length, and from any buffer that holds the same bytes
`parse` returns `result` and takes all of them. -/
def Decodes {α : Type} (write : BufferM PUnit) (parse : BufferM α)
    (result : α) (length : Nat → Prop) : Prop :=
  ∃ body, write.run {} = .ok ⟨⟩ body ∧ length body.bytes.length
    ∧ ∀ received, unread.holds received body.bytes →
      ∃ rest, parse.run received = .ok result rest ∧ rest.bytes = []

/-- What a writer writes is the whole of a new body. -/
theorem exists_body {write : BufferM PUnit} {out : List UInt8}
    (hwrite : Emits unread write out) (hout : out.length ≤ uint32Max) :
    ∃ body, write.run {} = .ok ⟨⟩ body ∧ body.bytes = out := by
  obtain ⟨body, hrun, hbody⟩ := hwrite {} [] PacketBuffer.unread_empty
    (by rw [List.length_nil, Nat.zero_add]; exact hout)
  exact ⟨body, hrun, PacketBuffer.bytes_of_unread hbody⟩

/-- A body that was written is what its writer writes. -/
theorem bytes_of_run {write : BufferM PUnit} {out : List UInt8}
    {body : PacketBuffer} (hwrite : Emits unread write out)
    (hout : out.length ≤ uint32Max) (hrun : write.run {} = .ok ⟨⟩ body) :
    body.bytes = out := by
  obtain ⟨body', hrun', hbytes⟩ := exists_body hwrite hout
  rw [hrun] at hrun'
  cases hrun'
  exact hbytes

/-- A writer and a reader of the same bytes fit together. -/
theorem decodes_iff {α : Type} {write : BufferM PUnit} {parse : BufferM α}
    {out : List UInt8} {value result : α} {length : Nat → Prop}
    (hwrite : Emits unread write out) (hparse : Consumes unread parse out value)
    (hout : out.length ≤ uint32Max) (hlength : length out.length) :
    Decodes write parse result length ↔ value = result := by
  obtain ⟨body, hrun, hbytes⟩ := exists_body hwrite hout
  have hdecode (received : PacketBuffer)
      (hreceived : unread.holds received body.bytes) :
      ∃ rest, parse.run received = .ok value rest ∧ rest.bytes = [] := by
    rw [hbytes, ← List.append_nil out] at hreceived
    obtain ⟨rest, hparsed, hrest⟩ := hparse received [] hreceived
    exact ⟨rest, hparsed, PacketBuffer.bytes_of_unread hrest⟩
  constructor
  · intro h
    obtain ⟨body', hrun', -, hall⟩ := h
    rw [hrun] at hrun'
    cases hrun'
    have hfresh : unread.holds ⟨out, 0⟩ body.bytes := by
      rw [hbytes]
      exact PacketBuffer.unread_fresh hout
    obtain ⟨rest, hparsed, -⟩ := hall _ hfresh
    obtain ⟨rest', hparsed', -⟩ := hdecode _ hfresh
    rw [hparsed] at hparsed'
    injection hparsed' with hvalue
    exact hvalue.symm
  · intro h
    subst h
    exact ⟨body, hrun, by rw [hbytes]; exact hlength, hdecode⟩

namespace Init

variable (wr rd : ByteOrder) (p : Init)

/-- The body of an `Init`: name, version, locale, next step. -/
def toBytes : List UInt8 :=
  p.gameName.charData.toList ++ (leBytes 4 p.gameVersion.toNat
    ++ (p.clientLocale.canonical.toBytes ++ [p.next]))

theorem toBytes_length : p.toBytes.length = 17 := by
  simp [toBytes, LocaleInfo.toBytes]

theorem emits_write : Emits unread (p.write wr) p.toBytes :=
  (PacketBuffer.emits_writeArray _).seq
    ((PacketBuffer.emits_putInt wr 4 _).seq
      (p.clientLocale.emits_put.seq (PacketBuffer.emits_write p.next)))

/-- Decoding gives back every field but the game name. -/
theorem consumes_parse : Consumes unread (parse rd) p.toBytes
    { p with gameName := .zero, clientLocale := p.clientLocale.canonical } := by
  obtain ⟨copy, hname⟩ := ProtocolGameName.zero.consumes_get
    p.gameName.length_toList
  refine hname.bind ((PacketBuffer.consumes_getUInt32 rd p.gameVersion).bind ?_)
  exact p.clientLocale.consumes_get.bind
    (PacketBuffer.consumes_read p.next).bind_pure

/-- `Init` round-trips between the two ends: the same fields with the
locale in canonical form, 17 bytes, all of them consumed. -/
def RoundTrips : Prop :=
  Decodes (p.write wr) (parse rd)
    { p with clientLocale := p.clientLocale.canonical } (· = 17)

theorem roundTrips_iff : p.RoundTrips wr rd ↔ p.gameName = .zero := by
  refine (decodes_iff (p.emits_write wr) (p.consumes_parse rd)
    (by rw [p.toBytes_length]; decide) p.toBytes_length).trans ?_
  constructor
  · intro heq
    exact (congrArg Init.gameName heq).symm
  · intro heq
    rw [← heq]

/-- Any 17 bytes are decoded to some `Init`, the last one being its next
step. -/
theorem parse_of_length {bs : List UInt8} (h : bs.length = 17) :
    ∃ (p : Init) (rest : PacketBuffer), (parse rd).run ⟨bs, 0⟩ = .ok p rest
      ∧ p.next = bs.getD 16 0 := by
  match bs, h with
  | [n0, n1, n2, n3, n4, n5, n6, n7, v0, v1, v2, v3, a, b, c, d, next], _ =>
    obtain ⟨copy, hname⟩ := ProtocolGameName.zero.consumes_get
      (show [n0, n1, n2, n3, n4, n5, n6, n7].length = 8 from rfl)
    obtain ⟨locale, hlocale⟩ := LocaleInfo.exists_consumes_get a b c d
    have hversion : Consumes unread (PacketBuffer.getUInt32 rd)
        [v0, v1, v2, v3] _ := (PacketBuffer.consumes_getInt rd _).bind_pure
    have hparse : Consumes unread (parse rd) _ _ :=
      hname.bind (hversion.bind (hlocale.bind
        (PacketBuffer.consumes_read next).bind_pure))
    obtain ⟨rest, hrun, -⟩ := hparse
      ⟨[n0, n1, n2, n3, n4, n5, n6, n7, v0, v1, v2, v3, a, b, c, d, next], 0⟩
      [] (PacketBuffer.unread_fresh (show 17 ≤ uint32Max by decide))
    exact ⟨_, rest, hrun, rfl⟩

end Init

-- ======================================================== `ServerInfo`

namespace ServerInfo

variable (wr rd : ByteOrder) {p : ServerInfo}

/-- The body of a `ServerInfo`: name, version, string. -/
def toBytes (p : ServerInfo) : List UInt8 :=
  p.gameName.charData.toList ++ (leBytes 4 p.gameVersion.toNat
    ++ PacketBuffer.stringBytes p.jsonString)

theorem toBytes_length (p : ServerInfo) :
    p.toBytes.length = p.jsonString.length + 14 := by
  simp only [toBytes, PacketBuffer.stringBytes, List.length_append,
    p.gameName.length_toList, Endian.leBytes_length]
  omega

theorem emits_write (h : p.jsonString.length ≤ uint16Max) :
    Emits unread (p.write wr) p.toBytes :=
  (PacketBuffer.emits_writeArray _).seq
    ((PacketBuffer.emits_putInt wr 4 _).seq
      (PacketBuffer.emits_putString wr h))

/-- Decoding gives back every field but the game name. -/
theorem consumes_parse (h : p.jsonString.length ≤ uint16Max) :
    Consumes unread (parse rd) p.toBytes { p with gameName := .zero } := by
  obtain ⟨copy, hname⟩ := ProtocolGameName.zero.consumes_get
    p.gameName.length_toList
  refine hname.bind ((PacketBuffer.consumes_getUInt32 rd p.gameVersion).bind ?_)
  exact (PacketBuffer.consumes_getString rd h).bind_pure

/-- `ServerInfo` round-trips between the two ends. -/
def RoundTrips (p : ServerInfo) : Prop :=
  Decodes (p.write wr) (parse rd) p (fun _ => True)

theorem roundTrips_iff (h : p.jsonString.length ≤ uint16Max) :
    p.RoundTrips wr rd ↔ p.gameName = .zero := by
  have hmax : uint16Max = 65535 := rfl
  have hmax' : uint32Max = 4294967295 := rfl
  refine (decodes_iff (emits_write wr h) (consumes_parse rd h)
    (by rw [p.toBytes_length]; omega) trivial).trans ?_
  constructor
  · intro heq
    exact (congrArg ServerInfo.gameName heq).symm
  · intro heq
    rw [← heq]

end ServerInfo

-- ===================================================== the login packets

/-- The login packets round-trip exactly when the game name is the zero
name. -/
theorem login_roundTrips_iff (wr rd : ByteOrder) (p : Init) (q : ServerInfo)
    (hq : q.jsonString.length ≤ 65535) :
    (p.RoundTrips wr rd ↔ p.gameName = .zero)
      ∧ (q.RoundTrips wr rd ↔ q.gameName = .zero) :=
  ⟨p.roundTrips_iff wr rd, ServerInfo.roundTrips_iff wr rd hq⟩

/-- Two packets of a nameless game. -/
theorem login_roundTrips_iff_zero :
    (Init.mk .zero 3 ⟨⟨101, 110⟩, ⟨85, 83⟩⟩ .join).RoundTrips .little .big
      ∧ (ServerInfo.mk .zero 3 [123, 125]).RoundTrips .little .big := by
  have h := login_roundTrips_iff .little .big
    (Init.mk .zero 3 ⟨⟨101, 110⟩, ⟨85, 83⟩⟩ .join)
    (ServerInfo.mk .zero 3 [123, 125]) (by decide)
  exact ⟨h.1.mpr rfl, h.2.mpr rfl⟩

/-- A game called `TestGame` does not get its name back. -/
theorem login_loses_name :
    ¬ ∀ (wr rd : ByteOrder) (p : Init), p.RoundTrips wr rd := by
  intro h
  let name : ProtocolGameName := ⟨#v[84, 101, 115, 116, 71, 97, 109, 101]⟩
  have hzero := (Init.roundTrips_iff .little .little
    ⟨name, 1, {}, .serverInfo⟩).mp (h .little .little _)
  exact absurd hzero (by decide)

end AWEnginePacket
