/-
What a client reads off a status response: nothing.

Neither loop of the scanner ends at the quotation mark it looks for, so
the first one runs to the end of the JSON or into a character it does
not expect, and both are answered with the empty string
(`simpleJsonParse_eq_nil`). So the documented pattern is found exactly
where its value is empty (`simpleJsonParse_iff`), and the player counts
of a documented status are read exactly where both are zero
(`counts_read_iff`).
-/
import Mathlib.Data.Bool.AllAny
import AWEnginePacket.Lib.Json
import AWEnginePacket.Model.ServerStatus

namespace AWEnginePacket

open Json (quote backslash colon quoted Ws Escaped utf8 ws_nil ws_space)

-- =========================================================== the scanner

/-- The loop for the start of the value ends at the end of the JSON. -/
theorem valueStartLoop_end {rest : List UInt8} {start stop : Nat}
    (h : valueStartLoop rest start = some stop) :
    stop = start + rest.length := by
  induction rest generalizing start with
  | nil =>
      rw [valueStartLoop, Option.some.injEq] at h
      rw [← h, List.length_nil, Nat.add_zero]
  | cons c rest ih =>
      rw [valueStartLoop] at h
      rw [List.length_cons]
      split at h
      · have := ih h
        omega
      · split at h
        · have := ih h
          omega
        · cases h

/-- There is no JSON and no key for which the scanner returns
anything. -/
theorem simpleJsonParse_eq_nil (json key : List UInt8) :
    simpleJsonParse json key = [] := by
  unfold simpleJsonParse
  simp only
  split
  · rfl
  · split
    · rfl
    · next index _ =>
      split
      · rfl
      · next hshort =>
        cases hstart : valueStartLoop
            (json.drop (index + ([34] ++ key ++ [34]).length + 1))
            (index + ([34] ++ key ++ [34]).length + 1) with
        | none => rfl
        | some stop =>
            have hstop := valueStartLoop_end hstart
            rw [List.length_drop] at hstop
            simp only
            rw [if_pos (by omega)]

/-- The documented pattern `"key": "value"`: `v` is what the first
occurrence of the key has behind it. -/
structure Pattern (json key v : List UInt8) : Prop where
  plain : ∀ b ∈ key, b ≠ quote ∧ b ≠ backslash
  escaped : Escaped v
  first : ∃ before w w' behind,
    json = before ++ quoted key ++ w ++ [colon] ++ w' ++ quoted v ++ behind
      ∧ Ws w ∧ Ws w'
      ∧ ∀ before' behind', json = before' ++ quoted key ++ behind' →
        before.length ≤ before'.length

variable {json key v : List UInt8}

/-- Of the documented pattern the value is returned if and only if it is
empty. -/
theorem simpleJsonParse_iff (_ : Pattern json key v) :
    simpleJsonParse json key = v ↔ v = [] := by
  rw [simpleJsonParse_eq_nil]
  exact eq_comm

/-- An object with one member, with nothing to escape. -/
theorem pattern_object {name value : List UInt8}
    (hname : ∀ b ∈ name, b ≠ quote ∧ b ≠ backslash)
    (hvalue : ∀ b ∈ value, b ≠ quote ∧ b ≠ backslash) :
    Pattern ([0x7b] ++ quoted name ++ [] ++ [colon] ++ [0x20]
      ++ quoted value ++ [0x7d]) name value where
  plain := hname
  escaped := Json.escaped_of_plain hvalue
  first := by
    refine ⟨[0x7b], [], [0x20], [0x7d], rfl, ws_nil, ws_space, ?_⟩
    intro before' behind' heq
    cases before' with
    | nil =>
        injection heq with hbrace
        exact absurd hbrace (by decide)
    | cons c before' => exact Nat.succ_le_succ (Nat.zero_le _)

/-- A server without a message of the day. -/
theorem simpleJsonParse_iff_motd :
    simpleJsonParse
        ([0x7b] ++ quoted (ascii "motd") ++ [] ++ [colon] ++ [0x20]
          ++ quoted [] ++ [0x7d]) (ascii "motd") = []
      ↔ ([] : List UInt8) = [] :=
  simpleJsonParse_iff (pattern_object (List.all_iff_forall_prop.mp rfl)
    (List.all_iff_forall_prop.mp rfl))

/-- A server named `Example` is read as one without a name. -/
theorem name_not_found :
    ∃ json, Pattern json (ascii "name") (ascii "Example")
      ∧ simpleJsonParse json (ascii "name") = []
      ∧ simpleJsonParse json (ascii "name") ≠ ascii "Example" := by
  refine ⟨_, pattern_object (List.all_iff_forall_prop.mp rfl)
    (List.all_iff_forall_prop.mp rfl), ?_, ?_⟩
  · exact simpleJsonParse_eq_nil _ _
  · rw [simpleJsonParse_eq_nil]
    decide

-- ========================================================= the accessors

theorem simpleJsonParseInt_eq_zero (json key : List UInt8) :
    simpleJsonParseInt json key = 0 := by
  unfold simpleJsonParseInt
  rw [simpleJsonParse_eq_nil]
  rfl

/-- Whatever a server answers, every accessor says the same. -/
theorem ServerInfo.accessors_blank (p : ServerInfo) :
    p.motd = [] ∧ p.serverName = [] ∧ p.website = []
      ∧ p.onlinePlayers = some 0 ∧ p.maxPlayers = 0
      ∧ p.whitelist = none := by
  have hstring := simpleJsonParse_eq_nil p.jsonString
  have hint := simpleJsonParseInt_eq_zero p.jsonString
  refine ⟨hstring _, hstring _, hstring _, congrArg some (hint _), hint _, ?_⟩
  rw [ServerInfo.whitelist, simpleJsonParseOptionalBool, hstring]

/-- The locale of every status is the empty one. -/
theorem ServerInfo.serverLocale_blank (p : ServerInfo) :
    p.serverLocale = {} := by
  rw [serverLocale, simpleJsonParse_eq_nil]
  rfl

/-- A status as documented: the text of an object, with the player
counts as integer members of a member `players`. A count is `none` if
there is no such member. -/
structure StatusDocument where
  text : List UInt8
  members : List (List Char × Json)
  online : Option Int
  max : Option Int
  document : Json.Document (.object members) text
  online_eq : (Json.member "players".toList (.object members)).bind
    (Json.member "online".toList) = online.map Json.int
  max_eq : (Json.member "players".toList (.object members)).bind
    (Json.member "max".toList) = max.map Json.int
  online_range : ∀ n ∈ online, -2147483648 ≤ n ∧ n ≤ 2147483647
  max_range : ∀ m ∈ max, -2147483648 ≤ m ∧ m ≤ 2147483647

/-- The accessors return the counts of the document. -/
def ReadsCounts (p : ServerInfo) (d : StatusDocument) : Prop :=
  p.onlinePlayers = d.online ∧ ∀ m ∈ d.max, p.maxPlayers = m

/-- The player counts of a documented status are read if and only if
nobody is online and nobody can be. -/
theorem counts_read_iff {p : ServerInfo} {d : StatusDocument}
    (_ : p.jsonString = d.text) :
    ReadsCounts p d ↔ d.online = some 0 ∧ ∀ m ∈ d.max, m = 0 := by
  obtain ⟨-, -, -, honline, hmax, -⟩ := p.accessors_blank
  rw [ReadsCounts, honline, hmax]
  constructor
  · rintro ⟨hn, hm⟩
    exact ⟨hn.symm, fun m h => (hm m h).symm⟩
  · rintro ⟨hn, hm⟩
    exact ⟨hn.symm, fun m h => (hm m h).symm⟩

/-- A member whose key needs no escapes, with a space in front of its
value. -/
theorem member_text {key : List Char} {j : Json} {t : List UInt8}
    (hkey : ∀ c ∈ key, Json.Plain c) (h : Json.Text j t) :
    Json.Member (key, j)
      ([] ++ quoted (utf8 key) ++ [] ++ colon :: [0x20] ++ t ++ []) :=
  .mk (Json.chars_utf8 hkey) ws_nil ws_nil ws_space h ws_nil

/-- A status with nothing but the two counts. -/
def StatusDocument.ofCounts (online max : Nat) (ho : online ≤ 2147483647)
    (hm : max ≤ 2147483647) : StatusDocument where
  text := _
  members := [("players".toList, .object
    [("online".toList, .int online), ("max".toList, .int max)])]
  online := some online
  max := some max
  document :=
    ⟨[], _, [], ws_nil,
      .object (.one (member_text (List.all_iff_forall_prop.mp rfl)
        (.object (.cons
          (member_text (List.all_iff_forall_prop.mp rfl)
            (.int (.nonneg online)))
          (.one (member_text (List.all_iff_forall_prop.mp rfl)
            (.int (.nonneg max)))))))),
      ws_nil, rfl⟩
  online_eq := rfl
  max_eq := rfl
  online_range := by
    intro n hn
    cases hn
    omega
  max_range := by
    intro m hm
    cases hm
    omega

/-- An empty server with no room. -/
theorem counts_read_zero :
    ReadsCounts
      ⟨.zero, 0, (StatusDocument.ofCounts 0 0 (by decide) (by decide)).text⟩
      (.ofCounts 0 0 (by decide) (by decide)) := by
  refine (counts_read_iff rfl).mpr ⟨rfl, ?_⟩
  intro m hm
  cases hm
  rfl

/-- Six players of thirteen are read as none of none. -/
theorem six_of_thirteen_lost :
    let d := StatusDocument.ofCounts 6 13 (by decide) (by decide)
    let p : ServerInfo := ⟨.zero, 0, d.text⟩
    d.online = some 6 ∧ d.max = some 13
      ∧ p.onlinePlayers = some 0 ∧ p.maxPlayers = 0
      ∧ ¬ ReadsCounts p d := by
  intro d p
  obtain ⟨-, -, -, honline, hmax, -⟩ := p.accessors_blank
  refine ⟨rfl, rfl, honline, hmax, ?_⟩
  rintro ⟨hn, -⟩
  rw [honline] at hn
  exact absurd hn (by decide)

end AWEnginePacket
