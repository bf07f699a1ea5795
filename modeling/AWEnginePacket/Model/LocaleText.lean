/-
The text forms of `LocaleInfo`: one printer and two parsers.

The constructor from a `std::string` goes by the string's length. The
extraction operator takes what the stream gives and looks at no state
bit, so the array it reads into may keep what it held before; C++ does
not say what that is, and the two parameters of `extract` stand for it.

A `std::string` is a list of bytes. An output stream is the characters
written so far, an input stream the characters left and `good()`; no
stream throws by itself (the exception mask is empty unless asked for).
-/
import AWEnginePacket.Model.Locale

namespace AWEnginePacket

-- =============================================================== streams

/-- Insertions into a `std::ostream`: they may throw, and keep what they
wrote. -/
abbrev OutM := EStateM Fault (List UInt8)

/-- `out << c`, for one character. -/
def OutM.put (c : UInt8) : OutM PUnit := modify fun out => out ++ [c]

/-- A `std::istream`: the characters left, and whether no state bit is
set. -/
structure IStream where
  rest : List UInt8
  good : Bool := true
deriving DecidableEq, Repr

namespace IStream

/-- `read(chars, count)`: the array `chars` of `count` characters
afterwards. Where the characters run out it keeps the tail it had, and
the stream is no longer good. -/
def read (chars : List UInt8) (stream : IStream) : List UInt8 × IStream :=
  if stream.good then
    let taken := stream.rest.take chars.length
    (taken ++ chars.drop taken.length,
      ⟨stream.rest.drop chars.length, taken.length == chars.length⟩)
  else (chars, stream)

/-- `peek()`; `none` is the end of file. -/
def peek (stream : IStream) : Option UInt8 × IStream :=
  if stream.good then
    match stream.rest with
    | [] => (none, { stream with good := false })
    | c :: _ => (some c, stream)
  else (none, stream)

/-- `ignore()`: one character. -/
def ignore (stream : IStream) : IStream :=
  if stream.good then
    match stream.rest with
    | [] => { stream with good := false }
    | _ :: rest => { stream with rest := rest }
  else stream

end IStream

-- ====================================================== LocaleDoubleChar

namespace LocaleDoubleChar

/-- `Write(out, upperCase)`. -/
def write (upperCase : Bool) (d : LocaleDoubleChar) : OutM PUnit := do
  if ¬ d.isValid then
    throw (.runtimeError "Cannot write invalid value")
  let correctCase := d.changeCase upperCase
  if correctCase.toBool then
    OutM.put correctCase.leftChar
    OutM.put correctCase.rightChar

/-- `operator>>(std::istream&, LocaleDoubleChar&)`; `left` and `right`
are what the uninitialised array held. -/
def extract (left right : UInt8) (stream : IStream) :
    LocaleDoubleChar × IStream :=
  let (chars, stream) := stream.read [left, right]
  (⟨chars.getD 0 0, chars.getD 1 0⟩, stream)

end LocaleDoubleChar

-- ============================================================ LocaleInfo

namespace LocaleInfo

/-- `LocaleInfo::Separator`, the `'-'`. -/
def separator : UInt8 := 45

/-- `LocaleInfo(const std::string&)`. -/
def ofString (str : List UInt8) : LocaleInfo :=
  if str.length ≥ 2 then
    let languageCode : LocaleDoubleChar := ⟨str.getD 0 0, str.getD 1 0⟩
    if str.length ≥ 5 ∧ str.getD 2 0 = separator then
      ⟨languageCode, ⟨str.getD 3 0, str.getD 4 0⟩⟩
    else ⟨languageCode, {}⟩
  else {}

/-- `Current()`, where `std::locale("")` has the name `lname`. -/
def current (lname : List UInt8) : LocaleInfo :=
  if lname.isEmpty ∨ lname = [67] then {} -- empty or `"C"`
  else if lname.length < 2 then {}
  else
    let languageCode : LocaleDoubleChar := ⟨lname.getD 0 0, lname.getD 1 0⟩
    if lname.length ≥ 5 ∧ (lname.getD 2 0 = 45 ∨ lname.getD 2 0 = 95) then
      -- behind a `'-'` or a `'_'`
      ⟨languageCode, ⟨lname.getD 3 0, lname.getD 4 0⟩⟩
    else ⟨languageCode, {}⟩

/-- `operator>>(std::istream&, LocaleInfo&)`: `locale` is the
destination before, the pairs what the two uninitialised arrays held. -/
def extract (chars chars' : UInt8 × UInt8) (locale : LocaleInfo)
    (stream : IStream) : LocaleInfo × IStream :=
  let (languageCode, stream) :=
    LocaleDoubleChar.extract chars.1 chars.2 stream
  let (next, stream) := stream.peek
  if next = some separator then
    let (countryCode, stream) :=
      LocaleDoubleChar.extract chars'.1 chars'.2 stream.ignore
    (⟨languageCode, countryCode⟩, stream)
  else (⟨languageCode, locale.countryCode⟩, stream)

/-- `operator<<(std::ostream&, LocaleInfo)`; `secondUpperCase` is the
macro `AWE_LOCALE_INFO_SECOND_UPPER_CASE`, which is 1 by default. -/
def print (secondUpperCase : Bool) (locale : LocaleInfo) : OutM PUnit := do
  if ¬ locale.isValid then
    throw (.runtimeError "Cannot write invalid locale")
  if locale.toBool then
    locale.languageCode.write false
    if locale.countryCode.toBool then
      OutM.put separator
      locale.countryCode.write secondUpperCase

end LocaleInfo

end AWEnginePacket
