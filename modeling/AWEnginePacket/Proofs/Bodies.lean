/-
Packet bodies, whole and cut off.

A `Kick` has two forms. With a message the body is its type and the
message, and both come back; without one the body is empty, and what is
decoded is a `Raw` kick, whatever type was encoded (`kick_decodes`).

No decoding constructor takes a cut-off body for a whole one
(`cut_bodies_refused`). A `ServerInfo` and a `Kick` reject it field by
field. An `Init` may skip a country code that is not there, which puts
the offset behind the end; the `Read` of the next step then throws.
-/
import AWEnginePacket.Proofs.Locale

namespace AWEnginePacket

open Endian (ByteOrder leBytes)
open Effect
open QueueCodec
open PacketBuffer (unread)

variable (wr rd : ByteOrder)

-- ================================================================= `Kick`

namespace Kick

variable {p : Kick} {id : UInt8} {b : PacketBuffer}

/-- The body of a `Kick`: nothing, or type and message. -/
def toBytes (p : Kick) : List UInt8 :=
  if p.message = [] then [] else [p.type] ++ PacketBuffer.stringBytes p.message

/-- What a `Kick` is decoded to. -/
def received (p : Kick) : Kick :=
  if p.message = [] then ⟨MessageType.raw, []⟩ else p

theorem emits_write (h : p.message.length ≤ uint16Max) :
    Emits unread (p.toPacket wr id).write p.toBytes := by
  unfold toPacket toBytes
  by_cases hm : p.message = []
  · rw [if_pos hm, if_neg (not_not_intro hm)]
    exact emits_nil
  · rw [if_neg hm, if_pos hm]
    exact (PacketBuffer.emits_write p.type).seq
      (PacketBuffer.emits_putString wr h)

theorem run_parse_nil (hb : unread.holds b []) :
    (parse rd).run b = .ok ⟨MessageType.raw, []⟩ b := by
  have hempty : b.empty = true := PacketBuffer.empty_of_unread hb
  unfold parse
  rw [EStateM.run_bind, EStateM.run_get]
  simp only
  rw [if_pos hempty]
  rfl

/-- What is decoded of a body that is not empty: a type and a message. -/
def fields : BufferM Kick := do
  let type ← PacketBuffer.getUInt8
  let message ← PacketBuffer.getString rd
  pure ⟨type, message⟩

theorem run_parse_cons {v : UInt8} {l : List UInt8}
    (hb : unread.holds b (v :: l)) :
    (parse rd).run b = (fields rd).run b := by
  have hempty : b.empty = false := PacketBuffer.empty_of_unread hb
  unfold parse
  rw [EStateM.run_bind, EStateM.run_get]
  simp only
  rw [hempty, if_neg Bool.false_ne_true]
  rfl

theorem consumes_fields {type : MessageType} {message : List UInt8}
    (h : message.length ≤ uint16Max) :
    Consumes unread (fields rd)
      ([type] ++ PacketBuffer.stringBytes message) ⟨type, message⟩ :=
  (PacketBuffer.consumes_read type).bind
    (PacketBuffer.consumes_getString rd h).bind_pure

theorem toBytes_length (p : Kick) : p.toBytes.length
    = if p.message = [] then 0 else p.message.length + 3 := by
  unfold toBytes
  by_cases hm : p.message = []
  · rw [if_pos hm, if_pos hm]
    rfl
  · rw [if_neg hm, if_neg hm]
    simp only [PacketBuffer.stringBytes, List.length_append,
      List.length_singleton, Endian.leBytes_length]
    omega

/-- Exactly the body is decoded, and nothing is left. -/
theorem run_parse_toBytes (h : p.message.length ≤ uint16Max)
    (hb : unread.holds b p.toBytes) :
    ∃ rest, (parse rd).run b = .ok p.received rest
      ∧ unread.holds rest [] := by
  unfold toBytes at hb
  unfold received
  by_cases hm : p.message = []
  · rw [if_pos hm] at hb ⊢
    exact ⟨b, run_parse_nil rd hb, hb⟩
  · rw [if_neg hm] at hb ⊢
    rw [← List.append_nil (_ ++ _)] at hb
    obtain ⟨rest, hrun, hrest⟩ := consumes_fields rd h b [] hb
    refine ⟨rest, ?_, hrest⟩
    rw [List.append_nil] at hb
    exact (run_parse_cons rd hb).trans hrun

/-- A `Kick` is decoded, from exactly the body that was written, to the
same type and message and nothing is left; but without a message the
body is empty, and the type is `Raw`. -/
theorem kick_decodes (p : Kick) (id : UInt8)
    (h : p.message.length ≤ 65535) :
    Decodes (p.toPacket wr id).write (parse rd)
      (if p.message = [] then ⟨MessageType.raw, []⟩ else p)
      (· = if p.message = [] then 0 else p.message.length + 3) := by
  have hmax : uint32Max = 4294967295 := rfl
  have hlen := p.toBytes_length
  have hroom : p.toBytes.length ≤ uint32Max := by
    rw [hlen]
    split
    · omega
    · omega
  have hemits : Emits unread (p.toPacket wr id).write p.toBytes :=
    emits_write wr h
  obtain ⟨body, hrun, hbytes⟩ := exists_body hemits hroom
  refine ⟨body, hrun, by rw [hbytes, hlen], fun received hreceived => ?_⟩
  rw [hbytes] at hreceived
  obtain ⟨rest, hparse, hrest⟩ := run_parse_toBytes rd h hreceived
  exact ⟨rest, hparse, PacketBuffer.bytes_of_unread hrest⟩

/-- The type of a kick without a message is lost. -/
theorem kick_loses_type :
    ¬ Decodes ((⟨1, []⟩ : Kick).toPacket .little 0).write (parse .little)
      ⟨1, []⟩ (fun _ => True) := by
  rintro ⟨body, hrun, -, hall⟩
  cases hrun
  obtain ⟨rest, hparsed, -⟩ := hall {} PacketBuffer.unread_empty
  cases hparsed

/-- Without a message and with one. -/
theorem kick_decodes_forms :
    Decodes ((⟨1, []⟩ : Kick).toPacket .little 0).write (parse .big)
        ⟨MessageType.raw, []⟩ (· = 0)
      ∧ Decodes ((⟨1, [104, 105]⟩ : Kick).toPacket .little 0).write
        (parse .big) ⟨1, [104, 105]⟩ (· = 5) :=
  ⟨kick_decodes .little .big ⟨1, []⟩ 0 (Nat.zero_le _),
    kick_decodes .little .big ⟨1, [104, 105]⟩ 0 (by decide)⟩

/-- A body with a message, cut off behind its first byte or later. -/
theorem starves_parse {type : MessageType} {message cut : List UInt8}
    (h : message.length ≤ uint16Max)
    (hcut : cut <+: [type] ++ PacketBuffer.stringBytes message)
    (hne : cut ≠ [type] ++ PacketBuffer.stringBytes message)
    (hcons : cut ≠ []) : Starves unread Fault.Defined (parse rd) cut := by
  have hrejects : Rejects unread Fault.Defined (fields rd)
      ([type] ++ PacketBuffer.stringBytes message) :=
    (PacketBuffer.rejects_read type).bind (PacketBuffer.consumes_read type)
      (PacketBuffer.rejects_getString rd h).bind_right
  intro b hb
  obtain ⟨v, l, rfl⟩ := List.exists_cons_of_ne_nil hcons
  rw [run_parse_cons rd hb]
  exact hrejects _ hcut hne b hb

end Kick

-- ========================================================== `ServerInfo`

namespace ServerInfo

theorem rejects_parse {p : ServerInfo} (h : p.jsonString.length ≤ uint16Max) :
    Rejects unread Fault.Defined (parse rd) p.toBytes := by
  refine ProtocolGameName.zero.rejects_get_bind p.gameName.length_toList
    (fun _ => ?_) ?_
  · exact (PacketBuffer.rejects_getUInt32 rd p.gameVersion).bind
      (PacketBuffer.consumes_getUInt32 rd p.gameVersion)
      (PacketBuffer.rejects_getString rd h).bind_right
  · simp [leBytes]

end ServerInfo

-- =============================================================== `Init`

/-- A locale and a byte behind it are five bytes: with fewer the `Read`
of the last throws, if no earlier one does. -/
theorem LocaleInfo.get_read_starves {α : Type} {b : PacketBuffer}
    {l : List UInt8} {k : LocaleInfo → UInt8 → BufferM α}
    (hb : unread.holds b l) (hl : l.length < 5)
    (hroom : b.mData.length + 2 ≤ uint32Max) :
    ∃ e b', (LocaleInfo.get >>= fun locale =>
        PacketBuffer.read >>= k locale).run b = .error e b'
      ∧ e.Defined := by
  have hstarved {l : List UInt8} (hb : unread.holds b l)
      (h : Starves unread Fault.Defined (LocaleInfo.get >>=
        fun locale => PacketBuffer.read >>= k locale) l) :
      ∃ e b', (LocaleInfo.get >>= fun locale =>
          PacketBuffer.read >>= k locale).run b = .error e b'
        ∧ e.Defined := by
    obtain ⟨e, b', -, hrun, he, -⟩ := h b hb
    exact ⟨e, b', hrun, he⟩
  by_cases hshort : l.length < 2
  · exact hstarved hb (starves_get_short hshort).bind
  obtain ⟨x, y, rest, rfl⟩ := exists_two hshort
  cases hletters : LocaleDoubleChar.letters ⟨x, y⟩ with
  | true =>
      by_cases hrest : rest.length < 2
      · exact hstarved hb (starves_get_letters hletters hrest).bind
      · obtain ⟨c, d, rfl⟩ : ∃ c d, rest = [c, d] := by
          simp only [List.length_cons] at hl
          exact List.length_eq_two.mp (by omega)
        apply hstarved hb
        exact (consumes_get_toBytes ⟨⟨x, y⟩, ⟨c, d⟩⟩).bind_starves
          PacketBuffer.starves_read.bind
  | false =>
      -- the offset is at the end now, or behind it
      obtain ⟨b', hget⟩ := run_get_skips hletters hb
      have hb' := of_run_get hget
      have hend : b'.mData[b'.mStartOffset.toNat]? = none := by
        have hlen := congrArg List.length hb.2.2
        have hmax : uint32Max = 4294967295 := rfl
        have hadd : (b.mStartOffset + 4).toNat
            = (b.mStartOffset.toNat + 4) % 2 ^ 32 := UInt32.toNat_add _ _
        rw [List.length_drop] at hlen
        simp only [List.length_cons] at hlen hl
        rw [hb', List.getElem?_eq_none_iff]
        show b.mData.length ≤ (b.mStartOffset + 4).toNat
        omega
      have hread := PacketBuffer.run_read_end hend
      exact ⟨_, b', (run_bind_of_ok hget).trans (run_bind_of_error hread),
        trivial⟩

/-- An `Init` that is cut off: the name and the version reject it, and so
do the locale and the next step behind them. -/
theorem Init.parse_fails {p : Init} {cut : List UInt8}
    (hcut : cut <+: p.toBytes) (hne : cut ≠ p.toBytes) :
    ∃ e b', (Init.parse rd).run ⟨cut, 0⟩ = .error e b' ∧ e.Defined := by
  have hmax : uint32Max = 4294967295 := rfl
  have hlt := PacketBuffer.length_lt_of_cut hcut hne
  rw [p.toBytes_length] at hlt
  have hb : unread.holds ⟨cut, 0⟩ cut :=
    PacketBuffer.unread_fresh (by omega)
  have hversion := PacketBuffer.consumes_getUInt32 rd p.gameVersion
  obtain ⟨copy, hname⟩ := ProtocolGameName.zero.consumes_get
    p.gameName.length_toList
  -- cut off in the name and the version, or in the two fields behind them
  have hsplit : cut <+: (p.gameName.charData.toList
      ++ leBytes 4 p.gameVersion.toNat)
        ++ (p.clientLocale.canonical.toBytes ++ [p.next]) := by
    rwa [List.append_assoc]
  rcases prefix_append_cases hsplit with ⟨hfront, hne'⟩ | ⟨cut', rfl, -⟩
  · have hrejects : Rejects unread Fault.Defined (parse rd) _ :=
      ProtocolGameName.zero.rejects_get_bind p.gameName.length_toList
        (fun _ => (PacketBuffer.rejects_getUInt32 rd p.gameVersion).bind_right)
        (by simp [leBytes])
    obtain ⟨e, b', -, hrun, he, -⟩ := hrejects cut hfront hne' _ hb
    exact ⟨e, b', hrun, he⟩
  · rw [List.append_assoc] at hb hlt ⊢
    obtain ⟨b₁, hrun₁, hb₁⟩ := hname _ _ hb
    obtain ⟨b₂, hrun₂, hb₂⟩ := hversion _ _ hb₁
    have hdata₁ : b₁.mData = p.gameName.charData.toList
        ++ (leBytes 4 p.gameVersion.toNat ++ cut') :=
      (ProtocolGameName.zero.keeps_data_get).of_ok hrun₁
    have hdata₂ : b₂.mData = b₁.mData :=
      (PacketBuffer.keeps_data_getUInt32 rd).of_ok hrun₂
    have hshort : cut'.length < 5 := by
      simp only [List.length_append, p.gameName.length_toList,
        Endian.leBytes_length] at hlt
      omega
    have hroom : b₂.mData.length + 2 ≤ uint32Max := by
      rw [hdata₂, hdata₁]
      omega
    obtain ⟨e, b', hrun, he⟩ := LocaleInfo.get_read_starves
      (k := fun locale next => pure (⟨ProtocolGameName.zero, p.gameVersion,
        locale, next⟩ : Init)) hb₂ hshort hroom
    refine ⟨e, b', ?_, he⟩
    exact (run_bind_of_ok hrun₁).trans ((run_bind_of_ok hrun₂).trans hrun)

-- ============================================================== cut bodies

/-- Decoding throws on a buffer that holds `cut` and nothing else. -/
def Refuses {α : Type} (parse : BufferM α) (cut : List UInt8) : Prop :=
  ∃ what b', parse.run ⟨cut, 0⟩ = .error (.runtimeError what) b'

theorem refuses_of_fails {α : Type} {parse : BufferM α} {cut : List UInt8}
    (h : ∃ e b', parse.run ⟨cut, 0⟩ = .error e b' ∧ e.Defined) :
    Refuses parse cut := by
  obtain ⟨e, b', hrun, he⟩ := h
  cases e with
  | runtimeError what => exact ⟨what, b', hrun⟩
  | undefined what => exact he.elim

theorem refuses_of_starves {α : Type} {parse : BufferM α} {cut : List UInt8}
    (h : Starves unread Fault.Defined parse cut)
    (hcut : cut.length ≤ uint32Max) : Refuses parse cut := by
  obtain ⟨e, b', -, hrun, he, -⟩ := h _ (PacketBuffer.unread_fresh hcut)
  exact refuses_of_fails ⟨e, b', hrun, he⟩

theorem ServerInfo.length_of_run {p : ServerInfo} {body : PacketBuffer}
    (h : (p.write wr).run {} = .ok ⟨⟩ body) :
    p.jsonString.length ≤ uint16Max := by
  by_contra hlong
  unfold ServerInfo.write at h
  obtain ⟨u₁, b₁, -, h⟩ := of_run_bind_ok h
  obtain ⟨u₂, b₂, -, h⟩ := of_run_bind_ok h
  rw [PacketBuffer.run_putString_long wr (Nat.lt_of_not_le hlong)] at h
  cases h

theorem Kick.length_of_run {p : Kick} {id : UInt8} {body : PacketBuffer}
    (hm : p.message ≠ []) (h : (p.toPacket wr id).write.run {} = .ok ⟨⟩ body) :
    p.message.length ≤ uint16Max := by
  by_contra hlong
  unfold Kick.toPacket at h
  rw [if_pos hm] at h
  obtain ⟨u₁, b₁, -, h⟩ := of_run_bind_ok h
  rw [PacketBuffer.run_putString_long wr (Nat.lt_of_not_le hlong)] at h
  cases h

/-- No cut-off body is taken for a whole one: of what an `Init` or a
`ServerInfo` writes every strict prefix is refused, of what a `Kick` with
a message writes every one that is not empty. -/
theorem cut_bodies_refused :
    (∀ (p : Init) (body : PacketBuffer) (cut : List UInt8),
        (p.write wr).run {} = .ok ⟨⟩ body →
        cut <+: body.bytes → cut ≠ body.bytes → Refuses (Init.parse rd) cut)
      ∧ (∀ (p : ServerInfo) (body : PacketBuffer) (cut : List UInt8),
        (p.write wr).run {} = .ok ⟨⟩ body →
        cut <+: body.bytes → cut ≠ body.bytes →
        Refuses (ServerInfo.parse rd) cut)
      ∧ ∀ (p : Kick) (id : UInt8) (body : PacketBuffer) (cut : List UInt8),
        p.message ≠ [] → (p.toPacket wr id).write.run {} = .ok ⟨⟩ body →
        cut <+: body.bytes → cut ≠ body.bytes → cut ≠ [] →
        Refuses (Kick.parse rd) cut := by
  have hmax : uint32Max = 4294967295 := rfl
  have hmax' : uint16Max = 65535 := rfl
  refine ⟨fun p body cut hrun hcut hne => ?_,
    fun p body cut hrun hcut hne => ?_,
    fun p id body cut hm hrun hcut hne hcons => ?_⟩
  · have hlen := p.toBytes_length
    rw [bytes_of_run (p.emits_write wr) (by omega) hrun] at hcut hne
    exact refuses_of_fails (Init.parse_fails rd hcut hne)
  · have hlen := p.toBytes_length
    have hshort := ServerInfo.length_of_run wr hrun
    rw [bytes_of_run (ServerInfo.emits_write wr hshort) (by omega) hrun]
      at hcut hne
    have hle := hcut.length_le
    exact refuses_of_starves (ServerInfo.rejects_parse rd hshort cut hcut hne)
      (by omega)
  · have hlen := p.toBytes_length
    have hshort := Kick.length_of_run wr hm hrun
    have hbytes : p.toBytes = [p.type] ++ PacketBuffer.stringBytes p.message :=
      if_neg hm
    rw [if_neg hm] at hlen
    rw [bytes_of_run (Kick.emits_write wr hshort) (by omega) hrun]
      at hcut hne
    have hle := hcut.length_le
    rw [hbytes] at hcut hne
    exact refuses_of_starves (Kick.starves_parse rd hshort hcut hne hcons)
      (by omega)

/-- A nameless `Init` without a locale, cut off in the skipped country
code; a string's length without the string; a type without a message. -/
theorem cut_bodies_refused_examples :
    Refuses (Init.parse .big) [0, 0, 0, 0, 0, 0, 0, 0, 3, 0, 0, 0, 0, 0]
      ∧ Refuses (ServerInfo.parse .big)
        [0, 0, 0, 0, 0, 0, 0, 0, 3, 0, 0, 0, 2, 0]
      ∧ Refuses (Kick.parse .big) [1] := by
  obtain ⟨hinit, hinfo, hkick⟩ := cut_bodies_refused .little .big
  refine ⟨?_, ?_, ?_⟩
  · exact hinit ⟨.zero, 3, {}, .join⟩ _ _ rfl (by decide) (by decide)
  · exact hinfo ⟨.zero, 3, [123, 125]⟩ _ _ rfl (by decide) (by decide)
  · exact hkick ⟨1, [65]⟩ 0 _ _ (by decide) rfl (by decide) (by decide)
      (by decide)

end AWEnginePacket
