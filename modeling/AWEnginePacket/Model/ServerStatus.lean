/-
`ServerInfo`'s accessors: what a client reads off the JSON of a status
response, and the flat scanner they share.

`SimpleJsonParse<std::string>` looks for `"key": "value"` with two index
loops. The `break` in each of them ends the `switch` it stands in and
not the loop around it; `valueStartLoop` and `valueEndLoop` go on where
it stands, as the loops do. A `std::string` is a list of bytes, a
`const std::string& key` too.
-/
import AWEnginePacket.Model.Packets
import AWEnginePacket.Model.LocaleText

namespace AWEnginePacket

/-- The bytes of an ASCII string literal. -/
def ascii (literal : String) : List UInt8 :=
  literal.toList.map Char.toUInt8

namespace ServerInfoUtils

/-- `Field_MOTD`. -/
def fieldMOTD : List UInt8 := ascii "motd"

/-- `Field_ServerName`. -/
def fieldServerName : List UInt8 := ascii "name"

/-- `Field_Website`. -/
def fieldWebsite : List UInt8 := ascii "website"

/-- `Field_ServerLocale`. -/
def fieldServerLocale : List UInt8 := ascii "locale"

/-- `Field_OnlinePlayers`. -/
def fieldOnlinePlayers : List UInt8 := ascii "players.online"

/-- `Field_MaxPlayers`. -/
def fieldMaxPlayers : List UInt8 := ascii "players.max"

/-- `Field_Whitelist`. -/
def fieldWhitelist : List UInt8 := ascii "whitelist"

end ServerInfoUtils

-- =============================================================== strings

/-- `std::string::find`, on what is left of the string from `index` on:
the first position the pattern stands at, if any. -/
def findFrom (pattern : List UInt8) : List UInt8 → Nat → Option Nat
  | [], index => if pattern = [] then some index else none
  | c :: rest, index =>
      if pattern.isPrefixOf (c :: rest) then some index
      else findFrom pattern rest (index + 1)

/-- The loop for the start of the value, over what is left of the JSON
from `valueStart` on: where it ends, if it does not return. -/
def valueStartLoop : List UInt8 → Nat → Option Nat
  | [], valueStart => some valueStart
  | c :: rest, valueStart =>
      if c = 58 ∨ c = 32 ∨ c = 10 ∨ c = 13 ∨ c = 9 then
        -- ':', ' ', '\n', '\r', '\t'
        valueStartLoop rest (valueStart + 1)
      else if c = 34 then
        -- '\"': `break` leaves the `switch`
        valueStartLoop rest (valueStart + 1)
      else none

/-- The loop for the end of the value; `previous` is the character at
`valueEnd - 1`. -/
def valueEndLoop (previous : UInt8) : List UInt8 → Nat → Nat
  | [], valueEnd => valueEnd
  | c :: rest, valueEnd =>
      if c = 34 then
        if previous = 92 then valueEndLoop c rest (valueEnd + 1)
        else
          -- `break` leaves the `switch`
          valueEndLoop c rest (valueEnd + 1)
      else valueEndLoop c rest (valueEnd + 1)

/-- `SimpleJsonParse<std::string>(json, key)`. -/
def simpleJsonParse (json key : List UInt8) : List UInt8 :=
  let jsonKey := [34] ++ key ++ [34]
  if jsonKey.length + 1 + 2 ≥ json.length then []
  else
    match findFrom jsonKey json 0 with
    | none => []
    | some index =>
        if index + jsonKey.length + 1 + 2 ≥ json.length then []
        else
          let valueStart := index + jsonKey.length + 1
          match valueStartLoop (json.drop valueStart) valueStart with
          | none => []
          | some valueStart =>
              if valueStart ≥ json.length then []
              else
                let valueEnd := valueEndLoop (json.getD valueStart 0)
                  (json.drop (valueStart + 1)) (valueStart + 1)
                if valueEnd = valueStart + 1 then []
                else (json.drop valueStart).take (valueEnd - valueStart)

-- ============================================================== integers

/-- `std::isspace` in the "C" locale. -/
def isSpace (c : UInt8) : Bool := c = 32 || (9 ≤ c && c ≤ 13)

/-- `'0'` to `'9'`. -/
def isDigit (c : UInt8) : Bool := 48 ≤ c && c ≤ 57

/-- `std::stoi(str, &processedChars, 10)`: the value and how many
characters it took; `none` is an exception. -/
def stoi (str : List UInt8) : Option (Int × Nat) :=
  let unspaced := str.dropWhile isSpace
  let (negative, unsigned) := match unspaced with
    | 45 :: rest => (true, rest)
    | 43 :: rest => (false, rest)
    | rest => (false, rest)
  let digits := unsigned.takeWhile isDigit
  if digits = [] then none
  else
    let magnitude : Int :=
      digits.foldl (fun n c => n * 10 + (c.toNat - 48 : Nat)) 0
    let value := if negative then -magnitude else magnitude
    if value < -2147483648 ∨ value > 2147483647 then none
    else
      some (value, str.length - unsigned.length + digits.length)

/-- `SimpleJsonParse<std::optional<int>>(json, key)`. -/
def simpleJsonParseOptionalInt (json key : List UInt8) : Option Int :=
  let str := simpleJsonParse json key
  if str.isEmpty then none
  else
    match stoi str with
    | none => none
    | some (value, processedChars) =>
        if processedChars ≠ str.length then none else some value

/-- `SimpleJsonParse<int>(json, key)`. -/
def simpleJsonParseInt (json key : List UInt8) : Int :=
  let str := simpleJsonParse json key
  if str.isEmpty then 0
  else
    match stoi str with
    | none => 0
    | some (value, processedChars) =>
        if processedChars ≠ str.length then 0 else value

/-- `SimpleJsonParse<std::optional<bool>>(json, key)`. -/
def simpleJsonParseOptionalBool (json key : List UInt8) : Option Bool :=
  match simpleJsonParse json key with
  | [] => none
  | c :: _ =>
      if c ∈ ascii "yYtT1" then some true
      else if c ∈ ascii "nNfF0" then some false
      else none

-- ============================================================= accessors

namespace ServerInfo

open ServerInfoUtils

/-- `MOTD()`. -/
def motd (p : ServerInfo) : List UInt8 :=
  simpleJsonParse p.jsonString fieldMOTD

/-- `ServerName()`. -/
def serverName (p : ServerInfo) : List UInt8 :=
  simpleJsonParse p.jsonString fieldServerName

/-- `Website()`. -/
def website (p : ServerInfo) : List UInt8 :=
  simpleJsonParse p.jsonString fieldWebsite

/-- `ServerLocale()`. -/
def serverLocale (p : ServerInfo) : LocaleInfo :=
  .ofString (simpleJsonParse p.jsonString fieldServerLocale)

/-- `OnlinePlayers()`: an optional made of a plain `int`. -/
def onlinePlayers (p : ServerInfo) : Option Int :=
  some (simpleJsonParseInt p.jsonString fieldOnlinePlayers)

/-- `MaxPlayers()`. -/
def maxPlayers (p : ServerInfo) : Int :=
  simpleJsonParseInt p.jsonString fieldMaxPlayers

/-- `Whitelist()`. -/
def whitelist (p : ServerInfo) : Option Bool :=
  simpleJsonParseOptionalBool p.jsonString fieldWhitelist

end ServerInfo

end AWEnginePacket
