/-
`LocaleDoubleChar` and `LocaleInfo`, with the four-byte binary codec.

Encoder and decoder normalise in a different order: the encoder
converts the case first and then tests the result, the decoder tests
first and converts after. Invalid codes are written as zeros, and a
decoder that rejects the language code skips the two bytes of the
country code without looking at them.
-/
import AWEnginePacket.Model.PacketBuffer

namespace AWEnginePacket

/-- `LocaleDoubleChar`: two characters. -/
structure LocaleDoubleChar where
  leftChar : UInt8 := 0
  rightChar : UInt8 := 0
deriving DecidableEq, Repr

/-- An upper-case ASCII letter, `'A'` to `'Z'`. -/
def isUpper (c : UInt8) : Bool := c ≥ 65 && c ≤ 90

/-- A lower-case ASCII letter, `'a'` to `'z'`. -/
def isLower (c : UInt8) : Bool := c ≥ 97 && c ≤ 122

namespace LocaleDoubleChar

/-- `operator bool`: there is a value. -/
def toBool (d : LocaleDoubleChar) : Bool := d.leftChar != 0 || d.rightChar != 0

/-- `IsValid()`: empty, or two letters. -/
def isValid (d : LocaleDoubleChar) : Bool :=
  if d.leftChar = 0 ∧ d.rightChar = 0 then true
  else if isUpper d.leftChar || isLower d.leftChar then
    isUpper d.rightChar || isLower d.rightChar
  else false

/-- `'a' - 'A'`. -/
def lowerToUpperDiff : UInt8 := 32

/-- One character of `ChangeCase`. -/
def changeChar (upperCase : Bool) (c : UInt8) : UInt8 :=
  if upperCase then (if c ≥ 97 then c - lowerToUpperDiff else c)
  else (if c ≤ 90 then c + lowerToUpperDiff else c)

/-- `ChangeCase(upperCase)`: empty for an invalid or empty code. -/
def changeCase (upperCase : Bool) (d : LocaleDoubleChar) : LocaleDoubleChar :=
  if ¬ d.isValid then {}
  else if ¬ d.toBool then {}
  else ⟨changeChar upperCase d.leftChar, changeChar upperCase d.rightChar⟩

end LocaleDoubleChar

/-- `LocaleInfo`. -/
structure LocaleInfo where
  languageCode : LocaleDoubleChar := {}
  countryCode : LocaleDoubleChar := {}
deriving DecidableEq, Repr

namespace LocaleInfo

open PacketBuffer

/-- `operator bool`: there is a language. -/
def toBool (locale : LocaleInfo) : Bool := locale.languageCode.toBool

/-- `IsValid()`: valid codes, and no country without a language. -/
def isValid (locale : LocaleInfo) : Bool :=
  locale.languageCode.isValid && locale.countryCode.isValid
    && !(!locale.languageCode.toBool && locale.countryCode.toBool)

/-- `operator<<(PacketBuffer&, LocaleInfo)`. -/
def put (locale : LocaleInfo) : BufferM PUnit := do
  let languageCode := locale.languageCode.changeCase false
  if languageCode.toBool && languageCode.isValid then
    write languageCode.leftChar
    write languageCode.rightChar
    let countryCode := locale.countryCode.changeCase true
    if countryCode.toBool && countryCode.isValid then
      write countryCode.leftChar
      write countryCode.rightChar
    else
      write 0
      write 0
  else
    write 0
    write 0
    write 0
    write 0

/-- `operator>>(PacketBuffer&, LocaleInfo&)`: the language code is read,
a country code only behind a valid one. -/
def get : BufferM LocaleInfo := do
  let left ← read
  let right ← read
  let languageCode : LocaleDoubleChar := ⟨left, right⟩
  if languageCode.toBool && languageCode.isValid then
    let left ← read
    let right ← read
    let countryCode : LocaleDoubleChar := ⟨left, right⟩
    if countryCode.toBool && countryCode.isValid then
      pure ⟨languageCode.changeCase false, countryCode.changeCase true⟩
    else
      pure ⟨languageCode.changeCase false, {}⟩
  else
    skip 2
    pure {}

end LocaleInfo

end AWEnginePacket
