/-
JSON documents and the texts that denote them.

`Json` is the value, `Text` the grammar: which bytes are a text of
which value. Whitespace may stand around every token, a string's
characters may be escaped or not, so a value has many texts. A number
is an integer or has a fraction or an exponent; of those only the
spelling is kept. `member` looks an object's key up.
-/
import Mathlib.Data.List.Basic

/-- A JSON value. -/
inductive Json
  | null
  | bool (b : Bool)
  | int (n : Int)
  | real (literal : List UInt8)
  | string (s : List Char)
  | array (items : List Json)
  | object (members : List (List Char × Json))

namespace Json

/-- The value of a key in an object. -/
def member (key : List Char) : Json → Option Json
  | object members => members.lookup key
  | _ => none

-- ============================================================ characters

/-- The bytes of characters. -/
def utf8 (s : List Char) : List UInt8 := s.flatMap String.utf8EncodeChar

/-- A quotation mark. -/
def quote : UInt8 := 0x22

/-- A backslash. -/
def backslash : UInt8 := 0x5c

/-- A comma. -/
def comma : UInt8 := 0x2c

/-- A colon. -/
def colon : UInt8 := 0x3a

/-- Spaces, tabs, LF and CR. -/
def Ws (w : List UInt8) : Prop := ∀ b ∈ w, b ∈ [0x20, 0x09, 0x0a, 0x0d]

/-- Between quotation marks. -/
def quoted (raw : List UInt8) : List UInt8 := quote :: raw ++ [quote]

/-- The letters behind a backslash, and the characters they stand for. -/
def escapes : List (UInt8 × Nat) :=
  [(0x22, 0x22), (0x5c, 0x5c), (0x2f, 0x2f), (0x62, 0x08), (0x66, 0x0c),
    (0x6e, 0x0a), (0x72, 0x0d), (0x74, 0x09)]

/-- The value of a hexadecimal digit. -/
def hexDigit (b : UInt8) : Option Nat :=
  if 0x30 ≤ b ∧ b ≤ 0x39 then some (b.toNat - 0x30)
  else if 0x41 ≤ b ∧ b ≤ 0x46 then some (b.toNat - 0x41 + 10)
  else if 0x61 ≤ b ∧ b ≤ 0x66 then some (b.toNat - 0x61 + 10)
  else none

/-- Four hexadecimal digits and their value. -/
inductive Hex4 : List UInt8 → Nat → Prop
  | mk {a b c d : UInt8} {w x y z : Nat} (ha : hexDigit a = some w)
      (hb : hexDigit b = some x) (hc : hexDigit c = some y)
      (hd : hexDigit d = some z) :
      Hex4 [a, b, c, d] (((w * 16 + x) * 16 + y) * 16 + z)

/-- A character that stands for itself in a string. -/
def Plain (c : Char) : Prop :=
  0x20 ≤ c.toNat ∧ c.toNat ≠ 0x22 ∧ c.toNat ≠ 0x5c

instance (c : Char) : Decidable (Plain c) :=
  inferInstanceAs (Decidable (_ ∧ _ ∧ _))

/-- What may stand between the quotation marks of a string, and the
characters it denotes. -/
inductive Chars : List UInt8 → List Char → Prop
  | nil : Chars [] []
  | plain {c : Char} {raw : List UInt8} {s : List Char} (hc : Plain c)
      (h : Chars raw s) : Chars (String.utf8EncodeChar c ++ raw) (c :: s)
  | short {letter : UInt8} {code : Nat} {raw : List UInt8} {s : List Char}
      (hc : (letter, code) ∈ escapes) (h : Chars raw s) :
      Chars (backslash :: letter :: raw) (Char.ofNat code :: s)
  | code {c : Char} {hex raw : List UInt8} {s : List Char}
      (hc : Hex4 hex c.toNat) (h : Chars raw s) :
      Chars (backslash :: 0x75 :: hex ++ raw) (c :: s)
  | pair {c : Char} {hex hex' raw : List UInt8} {s : List Char}
      {high low : Nat} (hhigh : Hex4 hex (0xd800 + high))
      (hlow : Hex4 hex' (0xdc00 + low)) (hh : high < 0x400)
      (hl : low < 0x400) (hc : c.toNat = 0x10000 + high * 0x400 + low)
      (h : Chars raw s) :
      Chars (backslash :: 0x75 :: hex ++ backslash :: 0x75 :: hex' ++ raw)
        (c :: s)

/-- Every quotation mark is escaped by a backslash that is not itself
escaped. -/
inductive Escaped : List UInt8 → Prop
  | nil : Escaped []
  | plain {b : UInt8} {raw : List UInt8} (hq : b ≠ quote)
      (hb : b ≠ backslash) (h : Escaped raw) : Escaped (b :: raw)
  | escape (b : UInt8) {raw : List UInt8} (h : Escaped raw) :
      Escaped (backslash :: b :: raw)

/-- Nothing to escape. -/
theorem escaped_of_plain {raw : List UInt8}
    (h : ∀ b ∈ raw, b ≠ quote ∧ b ≠ backslash) : Escaped raw := by
  induction raw with
  | nil => exact .nil
  | cons b raw ih =>
      obtain ⟨hq, hb⟩ := h b (List.mem_cons_self ..)
      exact .plain hq hb (ih fun c hc => h c (List.mem_cons_of_mem b hc))

/-- Characters that stand for themselves. -/
theorem chars_utf8 {s : List Char} (h : ∀ c ∈ s, Plain c) :
    Chars (utf8 s) s := by
  induction s with
  | nil => exact .nil
  | cons c s ih =>
      have hs := ih fun d hd => h d (List.mem_cons_of_mem c hd)
      exact .plain (h c (List.mem_cons_self ..)) hs

-- =============================================================== numbers

/-- A number without leading zeros. -/
def digits (n : Nat) : List UInt8 := utf8 (Nat.toDigits 10 n)

/-- An integer's texts; zero has two. -/
inductive IntText : Int → List UInt8 → Prop
  | nonneg (n : Nat) : IntText n (digits n)
  | neg (n : Nat) : IntText (-n) (0x2d :: digits n)

/-- One or more digits. -/
def Digits (ds : List UInt8) : Prop :=
  ds ≠ [] ∧ ∀ d ∈ ds, 0x30 ≤ d ∧ d ≤ 0x39

/-- A fraction, or none. -/
inductive Fraction : List UInt8 → Prop
  | none : Fraction []
  | some {ds : List UInt8} (h : Digits ds) : Fraction (0x2e :: ds)

/-- An exponent, or none. -/
inductive Exponent : List UInt8 → Prop
  | none : Exponent []
  | some {e : UInt8} {sign ds : List UInt8} (he : e = 0x65 ∨ e = 0x45)
      (hs : sign ∈ [[], [0x2b], [0x2d]]) (h : Digits ds) :
      Exponent (e :: sign ++ ds)

/-- A number that is not spelled as an integer. -/
inductive RealText : List UInt8 → Prop
  | mk {n : Int} {t frac exp : List UInt8} (ht : IntText n t)
      (hf : Fraction frac) (he : Exponent exp) (hne : frac ++ exp ≠ []) :
      RealText (t ++ frac ++ exp)

-- ================================================================ values

mutual

/-- The texts of a value. -/
inductive Text : Json → List UInt8 → Prop
  | null : Text .null (utf8 "null".toList)
  | true : Text (.bool true) (utf8 "true".toList)
  | false : Text (.bool false) (utf8 "false".toList)
  | int {n : Int} {t : List UInt8} (h : IntText n t) : Text (.int n) t
  | real {t : List UInt8} (h : RealText t) : Text (.real t) t
  | string {s : List Char} {raw : List UInt8} (h : Chars raw s) :
      Text (.string s) (quoted raw)
  | array {items : List Json} {t : List UInt8} (h : Items items t) :
      Text (.array items) (0x5b :: t ++ [0x5d])
  | object {members : List (List Char × Json)} {t : List UInt8}
      (h : Members members t) : Text (.object members) (0x7b :: t ++ [0x7d])

/-- What stands between the brackets of an array. -/
inductive Items : List Json → List UInt8 → Prop
  | none {w : List UInt8} (hw : Ws w) : Items [] w
  | one {j : Json} {w t w' : List UInt8} (hw : Ws w) (h : Text j t)
      (hw' : Ws w') : Items [j] (w ++ t ++ w')
  | cons {j j' : Json} {items : List Json} {w t w' rest : List UInt8}
      (hw : Ws w) (h : Text j t) (hw' : Ws w')
      (hrest : Items (j' :: items) rest) :
      Items (j :: j' :: items) (w ++ t ++ w' ++ comma :: rest)

/-- A key, a colon and a value. -/
inductive Member : List Char × Json → List UInt8 → Prop
  | mk {key : List Char} {j : Json} {raw w₁ w₂ w₃ t w₄ : List UInt8}
      (hkey : Chars raw key) (hw₁ : Ws w₁) (hw₂ : Ws w₂) (hw₃ : Ws w₃)
      (h : Text j t) (hw₄ : Ws w₄) :
      Member (key, j) (w₁ ++ quoted raw ++ w₂ ++ colon :: w₃ ++ t ++ w₄)

/-- What stands between the braces of an object. -/
inductive Members : List (List Char × Json) → List UInt8 → Prop
  | none {w : List UInt8} (hw : Ws w) : Members [] w
  | one {m : List Char × Json} {t : List UInt8} (h : Member m t) :
      Members [m] t
  | cons {m m' : List Char × Json} {members : List (List Char × Json)}
      {t rest : List UInt8} (h : Member m t)
      (hrest : Members (m' :: members) rest) :
      Members (m :: m' :: members) (t ++ comma :: rest)

end

/-- A document: a value with whitespace around it. -/
def Document (j : Json) (text : List UInt8) : Prop :=
  ∃ w t w', Ws w ∧ Text j t ∧ Ws w' ∧ text = w ++ t ++ w'

theorem ws_nil : Ws [] := fun _ hb => absurd hb List.not_mem_nil

/-- One space. -/
theorem ws_space : Ws [0x20] := by
  intro b hb
  rw [List.mem_singleton] at hb
  rw [hb]
  exact List.mem_cons_self ..

end Json
