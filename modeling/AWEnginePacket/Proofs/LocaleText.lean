/-
The text forms of a locale against its four bytes, and against each
other.

Both the printer and the binary codec normalise: a printed locale, read
back by the string constructor, is the canonical form that encoding and
decoding give (`text_agrees`). What cannot be printed is exactly what is
not valid.

# Two parsers

The stream parser is the string constructor's only where every character
it uses was read and the country code was stored. A text of one
character leaves part of an uninitialised array in the language code, a
text that ends behind the separator leaves it in the country code, and a
text without a country keeps the destination's old one
(`parsersAgree_iff`).

# The system's locale

`Current()` takes the first characters of a name as they are, so it gives
locales that are not valid, such as that of `"C.UTF-8"`. What comes of it
at a server is valid, and prints as the name's own language and country,
as far as they are letters (`current_arrives`).
-/
import AWEnginePacket.Model.LocaleText
import AWEnginePacket.Proofs.Locale

namespace AWEnginePacket

open Effect
open QueueCodec
open PacketBuffer (unread)

-- =============================================================== printing

theorem OutM.run_put (c : UInt8) (out : List UInt8) :
    (OutM.put c).run out = .ok ⟨⟩ (out ++ [c]) := rfl

namespace LocaleDoubleChar

/-- The two characters as they stand. -/
def chars (d : LocaleDoubleChar) : List UInt8 := [d.leftChar, d.rightChar]

/-- Printing two letters prints them in the asked-for case. -/
theorem run_write (upperCase : Bool) {d : LocaleDoubleChar}
    (h : d.letters = true) (out : List UInt8) :
    (d.write upperCase).run out
      = .ok ⟨⟩ (out ++ (d.canonical upperCase).chars) := by
  have hd := d.toBool_and_isValid
  rw [h, Bool.and_eq_true] at hd
  have hcanonical := toBool_and_isValid (d.canonical upperCase)
  rw [(canonical_of_letters upperCase h).1, Bool.and_eq_true] at hcanonical
  rw [write]
  simp only [hd.2, not_true_eq_false, if_false, changeCase_eq,
    hcanonical.1, if_true]
  show EStateM.Result.ok PUnit.unit
    (out ++ [(d.canonical upperCase).leftChar]
      ++ [(d.canonical upperCase).rightChar]) = _
  rw [List.append_assoc]
  rfl

end LocaleDoubleChar

namespace LocaleInfo

/-- What a valid locale is printed as. -/
def text (secondUpperCase : Bool) (locale : LocaleInfo) : List UInt8 :=
  if locale.languageCode.letters then
    (locale.languageCode.canonical false).chars
      ++ if locale.countryCode.letters then
        separator :: (locale.countryCode.canonical secondUpperCase).chars
      else []
  else []

/-- A valid locale is printed. -/
theorem run_print (secondUpperCase : Bool) {locale : LocaleInfo}
    (h : locale.isValid = true) (out : List UInt8) :
    (locale.print secondUpperCase).run out
      = .ok ⟨⟩ (out ++ locale.text secondUpperCase) := by
  have hlang := locale.languageCode.toBool_and_isValid
  have hcountry := locale.countryCode.toBool_and_isValid
  have hvalid := h
  rw [isValid, Bool.and_eq_true, Bool.and_eq_true] at hvalid
  rw [hvalid.1.1, Bool.and_true] at hlang
  rw [hvalid.1.2, Bool.and_true] at hcountry
  rw [print]
  simp only [h, not_true_eq_false, if_false, toBool, hlang, hcountry, text]
  cases hl : locale.languageCode.letters with
  | false =>
      show EStateM.Result.ok PUnit.unit out = .ok ⟨⟩ (out ++ [])
      rw [List.append_nil]
  | true =>
      have hlanguage := LocaleDoubleChar.run_write false hl out
      cases hc : locale.countryCode.letters with
      | false =>
          refine (run_bind_of_ok hlanguage).trans ?_
          show EStateM.Result.ok PUnit.unit _ = .ok ⟨⟩ (out ++ (_ ++ []))
          rw [List.append_nil]
      | true =>
          refine (run_bind_of_ok hlanguage).trans ?_
          refine (run_bind_of_ok (OutM.run_put _ _)).trans ?_
          refine (LocaleDoubleChar.run_write secondUpperCase hc _).trans ?_
          rw [List.append_assoc, List.append_assoc]
          rfl

/-- The string constructor reads the canonical form off the text. -/
theorem ofString_text (locale : LocaleInfo) :
    ofString (locale.text true) = locale.canonical := by
  rw [text]
  cases hl : locale.languageCode.letters with
  | false => exact (canonical_of_false hl).symm
  | true =>
      rw [canonical_of_true hl]
      cases hc : locale.countryCode.letters with
      | false =>
          rw [LocaleDoubleChar.canonical_of_not_letters true hc]
          rfl
      | true => rfl

/-- Text and bytes say the same: a locale that is not valid is not
printed, and every other is printed as a text that the string
constructor reads as what comes back of its bytes. -/
theorem text_agrees (locale : LocaleInfo) (out : List UInt8) :
    (locale.isValid = false
        ∧ (locale.print true).run out
          = .error (.runtimeError "Cannot write invalid locale") out)
      ∨ locale.isValid = true ∧ ∃ text bytes,
          (locale.print true).run out = .ok ⟨⟩ (out ++ text)
          ∧ Emits unread locale.put bytes
          ∧ Consumes unread get bytes (ofString text) := by
  cases h : locale.isValid with
  | false =>
      refine .inl ⟨rfl, ?_⟩
      rw [print]
      simp only [h, Bool.false_eq_true, not_false_eq_true, if_true]
      rfl
  | true =>
      refine .inr ⟨rfl, locale.text true, locale.canonical.toBytes,
        run_print true h out, locale.emits_put, ?_⟩
      rw [ofString_text]
      exact locale.consumes_get

-- =========================================================== two parsers

/-- The stream parser gives what the string constructor gives: on a
stream that holds exactly `str`, into a destination that held `old`,
and whatever the uninitialised arrays hold. -/
def ParsersAgree (str : List UInt8) (old : LocaleInfo) : Prop :=
  ∀ chars chars' : UInt8 × UInt8,
    (extract chars chars' old ⟨str, true⟩).1 = ofString str

variable {old : LocaleInfo}

/-- Behind two characters and no separator the country code is the
destination's. -/
theorem extract_no_separator (chars chars' : UInt8 × UInt8) (a b : UInt8)
    {rest : List UInt8} (h : rest.head? ≠ some separator) :
    (extract chars chars' old ⟨a :: b :: rest, true⟩).1
      = ⟨⟨a, b⟩, old.countryCode⟩ := by
  have hread : LocaleDoubleChar.extract chars.1 chars.2
      ⟨a :: b :: rest, true⟩ = (⟨a, b⟩, ⟨rest, true⟩) := rfl
  cases rest with
  | nil => rfl
  | cons c rest =>
      have hc : ¬ some c = some separator := h
      rw [extract, hread]
      simp only [IStream.peek, if_true, if_neg hc]

/-- Behind a separator it is what the second read leaves in its array. -/
theorem extract_separator (chars chars' : UInt8 × UInt8) (a b : UInt8)
    (rest : List UInt8) :
    (extract chars chars' old ⟨a :: b :: separator :: rest, true⟩).1
      = ⟨⟨a, b⟩,
        (LocaleDoubleChar.extract chars'.1 chars'.2 ⟨rest, true⟩).1⟩ := rfl

/-- Some character is another than `c`. -/
theorem exists_ne (c : UInt8) : ∃ c' : UInt8, c' ≠ c := by
  by_cases h : c = 0
  · exact ⟨1, by rw [h]; decide⟩
  · exact ⟨0, Ne.symm h⟩

/-- Fewer than two characters: the language code keeps a character the
array held. -/
theorem not_agree_short {str : List UInt8} (h : str.length < 2) :
    ¬ ParsersAgree str old := by
  intro hagree
  have hof : ofString str = {} := if_neg (by omega)
  obtain ⟨c, hc⟩ := exists_ne 0
  have hlast := congrArg (·.languageCode.rightChar) (hagree (0, c) (0, 0))
  rw [hof] at hlast
  refine hc (Eq.trans ?_ hlast)
  cases str with
  | nil => rfl
  | cons a rest =>
      cases rest with
      | nil => rfl
      | cons b rest =>
          rw [List.length_cons, List.length_cons] at h
          omega

/-- A text that ends behind the separator, or one character later. -/
theorem not_agree_cut (a b : UInt8) {rest : List UInt8}
    (h : rest.length < 2) :
    ¬ ParsersAgree (a :: b :: separator :: rest) old := by
  intro hagree
  have hof : ofString (a :: b :: separator :: rest) = ⟨⟨a, b⟩, {}⟩ := by
    rw [ofString, if_pos (by simp), if_neg (by simp; omega)]
    rfl
  obtain ⟨c, hc⟩ := exists_ne 0
  have hlast := congrArg (·.countryCode.rightChar) (hagree (0, 0) (0, c))
  rw [hof, extract_separator] at hlast
  refine hc (Eq.trans ?_ hlast)
  cases rest with
  | nil => rfl
  | cons x rest =>
      cases rest with
      | nil => rfl
      | cons y rest =>
          rw [List.length_cons, List.length_cons] at h
          omega

/-- A whole country code behind the separator. -/
theorem agree_separator (a b x y : UInt8) (rest : List UInt8) :
    ParsersAgree (a :: b :: separator :: x :: y :: rest) old := by
  intro chars chars'
  rw [extract_separator, ofString, if_pos (by simp), if_pos (by simp)]
  rfl

/-- No separator: the destination's country code decides. -/
theorem agree_no_separator_iff (a b : UInt8) {rest : List UInt8}
    (h : rest.head? ≠ some separator) :
    ParsersAgree (a :: b :: rest) old ↔ old.countryCode = {} := by
  have hof : ofString (a :: b :: rest) = ⟨⟨a, b⟩, {}⟩ := by
    cases rest with
    | nil => rfl
    | cons c rest =>
        have hc : ¬ c = separator := fun hc => h (congrArg some hc)
        rw [ofString, if_pos (by simp), if_neg (fun hfive => hc hfive.2)]
        rfl
  constructor
  · intro hagree
    have hrun := hagree (0, 0) (0, 0)
    rw [extract_no_separator _ _ a b h, hof] at hrun
    exact congrArg LocaleInfo.countryCode hrun
  · intro hold chars chars'
    rw [extract_no_separator _ _ a b h, hof, hold]

/-- The two parsers agree on a text if and only if it has a language
code and either a whole country code behind a separator, or no separator
and the destination no country code. -/
theorem parsersAgree_iff (str : List UInt8) (old : LocaleInfo) :
    ParsersAgree str old ↔ 2 ≤ str.length
      ∧ if str[2]? = some separator then 5 ≤ str.length
        else old.countryCode = {} := by
  by_cases hshort : str.length < 2
  · exact iff_of_false (not_agree_short hshort) (fun h => by omega)
  obtain ⟨a, b, rest, rfl⟩ := exists_two hshort
  have hlength : 2 ≤ (a :: b :: rest).length := by simp
  rw [and_iff_right hlength]
  show _ ↔ if rest[0]? = some separator then _ else _
  rw [← List.head?_eq_getElem?]
  by_cases hsep : rest.head? = some separator
  · rw [if_pos hsep]
    obtain ⟨tail, rfl⟩ := List.head?_eq_some_iff.mp hsep
    by_cases hcut : tail.length < 2
    · exact iff_of_false (not_agree_cut a b hcut) (by simp; omega)
    · obtain ⟨x, y, tail, rfl⟩ := exists_two hcut
      exact iff_of_true (agree_separator a b x y tail) (by simp)
  · rw [if_neg hsep]
    exact agree_no_separator_iff a b hsep

/-- `"en"` read into a destination that held `xx-US` is `en-US`; the
string constructor makes it `en`. -/
theorem language_only_keeps_country :
    ¬ ParsersAgree [101, 110] ⟨⟨120, 120⟩, ⟨85, 83⟩⟩ := by
  intro h
  have hrun := h (0, 0) (0, 0)
  revert hrun
  decide

-- ==================================================== the system's locale

/-- The canonical form is printed as the locale is. -/
theorem text_canonical (locale : LocaleInfo) :
    locale.canonical.text true = locale.text true := by
  cases hl : locale.languageCode.letters with
  | false =>
      rw [canonical_of_false hl, text, text, hl]
      rfl
  | true =>
      obtain ⟨hlang, hlang'⟩ :=
        LocaleDoubleChar.canonical_of_letters false hl
      simp only [canonical_of_true hl, text, hl, hlang, hlang', if_true]
      cases hc : locale.countryCode.letters with
      | false =>
          rw [LocaleDoubleChar.canonical_of_not_letters true hc]
          rfl
      | true =>
          obtain ⟨hcountry, hcountry'⟩ :=
            LocaleDoubleChar.canonical_of_letters true hc
          simp only [hcountry, hcountry']

/-- The two letters, if they are, in one case. -/
def spelt (upper : Bool) (a b : UInt8) : List UInt8 :=
  if LocaleDoubleChar.letters ⟨a, b⟩ then
    (LocaleDoubleChar.canonical upper ⟨a, b⟩).chars
  else []

/-- What the name of a locale says of it: a language, and behind a dash or
an underscore a country. -/
def tag : List UInt8 → List UInt8
  | a :: b :: s :: c :: d :: _ =>
      if LocaleDoubleChar.letters ⟨a, b⟩ ∧ (s = 45 ∨ s = 95)
          ∧ LocaleDoubleChar.letters ⟨c, d⟩ then
        spelt false a b ++ separator :: spelt true c d
      else spelt false a b
  | a :: b :: _ => spelt false a b
  | _ => []

theorem text_language (a b : UInt8) :
    text true ⟨⟨a, b⟩, {}⟩ = spelt false a b := by
  have hnone : LocaleDoubleChar.letters {} = false := rfl
  simp [text, spelt, hnone]

theorem text_country (a b c d : UInt8) :
    text true ⟨⟨a, b⟩, ⟨c, d⟩⟩
      = if LocaleDoubleChar.letters ⟨a, b⟩
          ∧ LocaleDoubleChar.letters ⟨c, d⟩ then
        spelt false a b ++ separator :: spelt true c d
      else spelt false a b := by
  cases hl : LocaleDoubleChar.letters ⟨a, b⟩ with
  | false => simp [text, spelt, hl]
  | true =>
      cases hc : LocaleDoubleChar.letters ⟨c, d⟩ with
      | false => simp [text, spelt, hl, hc]
      | true => simp [text, spelt, hl, hc]

/-- `Current()` says what the name says. -/
theorem text_current (lname : List UInt8) :
    (current lname).text true = tag lname := by
  rcases lname with _ | ⟨a, _ | ⟨b, _ | ⟨s, _ | ⟨c, _ | ⟨d, rest⟩⟩⟩⟩⟩
  · rfl
  · rw [current]
    split
    · rfl
    · rfl
  · simp [current, tag, text_language]
  · simp [current, tag, text_language]
  · simp [current, tag, text_language]
  · have hlong : ¬ rest.length + 1 + 1 + 1 + 1 + 1 < 2 := by omega
    by_cases hs : s = 45 ∨ s = 95
    · simp [current, tag, hs, hlong, text_country]
    · simp [current, tag, hs, hlong, text_language]

/-- Whatever the name of the system's locale, a client's `Init` carries
four bytes for it, and the server that reads them has a valid locale that
is printed as what the name says, and read back from that. -/
theorem current_arrives (lname out : List UInt8) :
    ∃ bytes locale, bytes.length = 4
      ∧ Emits unread (current lname).put bytes
      ∧ Consumes unread get bytes locale ∧ locale.isValid = true
      ∧ (locale.print true).run out = .ok ⟨⟩ (out ++ tag lname)
      ∧ ofString (tag lname) = locale := by
  refine ⟨_, (current lname).canonical, rfl, (current lname).emits_put,
    (current lname).consumes_get, canonical_isValid _, ?_, ?_⟩
  · rw [run_print true (canonical_isValid _), text_canonical, text_current]
  · rw [← text_current, ofString_text]

/-- Two names that say the same, and one that says nothing. -/
example : tag "en_US.UTF-8".toUTF8.toList = "en-US".toUTF8.toList
    ∧ tag "EN-us".toUTF8.toList = "en-US".toUTF8.toList
    ∧ tag "C.UTF-8".toUTF8.toList = [] := by
  decide +kernel

end LocaleInfo

end AWEnginePacket
