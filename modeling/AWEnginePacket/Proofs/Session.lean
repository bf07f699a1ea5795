/-
A server's connection and an honest client.

# The system

A `Session` is the server's connection, the bytes its client has sent,
and the number of messages the client has received. The client receives
what `Send` posts, in order and without loss, at any time after it was
posted (`receive`), answers each KeepAlive with a KeepAlive of the same
body, and says anything else it likes (`say`). What it sends arrives in
order and without loss; the server reads it when it likes.

# Pings and echoes

`Linked` is what holds in every run whose KeepAlives are pings: the
echoes in the client's stream are the pings it has received. So the
next echo the server reads answers the first ping that no echo read so
far has answered (`Linked.pong`). The server compares it with the last
ping it prepared. `Agreed` adds that these carry one payload, which
`OnePayload` ensures: no ping is prepared while one with another payload
is unanswered.
-/
import AWEnginePacket.Proofs.KeepAlive

namespace AWEnginePacket

open Endian (ByteOrder leBytes)
open Effect Connection

-- ============================================================ the session

/-- A frame, as a client sends it. -/
def clientFrame (id : UInt8) (flags : PacketFlags) (body : List UInt8) :
    List UInt8 :=
  [id, flags, UInt8.ofNat (body.length / 256), UInt8.ofNat body.length] ++ body

/-- A server's connection and its client. -/
structure Session where
  server : Connection
  /-- All bytes the client has sent. -/
  stream : List UInt8
  /-- How many messages the client has received. -/
  read : Nat

namespace Session

/-- A session in which nothing has been sent. -/
def start (self : Nat) (now : TimePoint) : Session :=
  ⟨started self [] now, [], 0⟩

/-- An event of the server's connection, or of the client. -/
inductive Action
  | server (a : Connection.Action)
  | receive
  | say (id : UInt8) (flags : PacketFlags) (body : List UInt8)

/-- The client sends some bytes. -/
def hear (s : Session) (bytes : List UInt8) : Session :=
  { s with
      server := { s.server with incoming := s.server.incoming ++ bytes }
      stream := s.stream ++ bytes }

/-- The client receives the next message, and echoes a KeepAlive. -/
def receive (ids : PacketIDs) (s : Session) : Option Session :=
  match s.server.sent[s.read]? with
  | none => none
  | some call =>
      let s' := { s with read := s.read + 1 }
      if call.info.header.id = ids.keepAlive then
        some (s'.hear (clientFrame ids.keepAlive PacketFlags.none
          (bodyBytes call.info)))
      else some s'

/-- One event of a session, where it is enabled. -/
def step (host : ByteOrder) (ids : PacketIDs) (a : Action) (s : Session) :
    Option Session :=
  match a with
  | .server a =>
      (Connection.step host ids a s.server).map fun c => { s with server := c }
  | .receive => s.receive ids
  | .say id flags body =>
      if id ≠ ids.keepAlive ∧ body.length ≤ 65535 then
        some (s.hear (clientFrame id flags body))
      else none

-- ============================================================ vocabulary

/-- The bodies of the KeepAlives among some messages. -/
def pingBodies (ids : PacketIDs) (calls : List SendCall) :
    List (List UInt8) :=
  (calls.filter fun call => call.info.header.id == ids.keepAlive).map
    fun call => bodyBytes call.info

/-- The bodies of the KeepAlives among some frames. -/
def pongBodies (ids : PacketIDs) (fs : List WireFrame) :
    List (List UInt8) :=
  (fs.filter (·.1.id == ids.keepAlive)).map (·.2)

/-- The number of KeepAlives a connection has received. -/
def pongCount (ids : PacketIDs) (c : Connection) : Nat :=
  c.mMessagesIn.countP (·.second.header.id == ids.keepAlive)

/-- The KeepAlives prepared, but for the first `n` of those posted. -/
def pingsFrom (ids : PacketIDs) (n : Nat) (c : Connection) :
    List (List UInt8) :=
  (pingBodies ids c.sent).drop n ++ pingBodies ids c.calls

/-- The KeepAlives prepared whose echo has not been received. -/
def unanswered (ids : PacketIDs) (c : Connection) : List (List UInt8) :=
  pingsFrom ids (pongCount ids c) c

/-- The KeepAlives the server sends are pings. -/
def SendsPings (host : ByteOrder) (ids : PacketIDs) : Action → Prop
  | .server a => ∀ packet ∈ sends? a, packet.id = ids.keepAlive →
      ∃ p, packet = Ping.toPacket host ids.keepAlive p
  | _ => True

/-- The server sends no ping while one with another payload is
unanswered. -/
def OnePayload (ids : PacketIDs) (s : Session) : Action → Prop
  | .server a => ∀ packet ∈ sends? a, packet.id = ids.keepAlive →
      ∀ b ∈ unanswered ids s.server, b = bodyOf packet
  | _ => True

instance (ids : PacketIDs) (s : Session) :
    (a : Action) → Decidable (OnePayload ids s a)
  | .server a => inferInstanceAs (Decidable (∀ packet ∈ sends? a,
      packet.id = ids.keepAlive →
        ∀ b ∈ unanswered ids s.server, b = bodyOf packet))
  | .receive => isTrue trivial
  | .say _ _ _ => isTrue trivial

variable {host : ByteOrder} {ids : PacketIDs} {s s' : Session}
  {c c' : Connection} {call : SendCall} {n m : Nat} {b : List UInt8}
  {now : TimePoint}

theorem pingBodies_append (calls more : List SendCall) :
    pingBodies ids (calls ++ more)
      = pingBodies ids calls ++ pingBodies ids more := by
  unfold pingBodies
  rw [List.filter_append, List.map_append]

theorem pongBodies_append (fs more : List WireFrame) :
    pongBodies ids (fs ++ more)
      = pongBodies ids fs ++ pongBodies ids more := by
  unfold pongBodies
  rw [List.filter_append, List.map_append]

theorem pingBodies_subset {calls more : List SendCall} (h : calls ⊆ more) :
    pingBodies ids calls ⊆ pingBodies ids more :=
  List.map_subset _ (List.filter_subset _ h)

theorem mem_pingBodies {calls : List SendCall} (hmem : call ∈ calls)
    (hid : call.info.header.id = ids.keepAlive) :
    bodyBytes call.info ∈ pingBodies ids calls := by
  refine List.mem_map_of_mem (List.mem_filter.mpr ⟨hmem, ?_⟩)
  exact beq_iff_eq.mpr hid

theorem pingBodies_singleton (ids : PacketIDs) (call : SendCall) :
    pingBodies ids [call]
      = if call.info.header.id = ids.keepAlive then [bodyBytes call.info]
        else [] := by
  by_cases hid : call.info.header.id = ids.keepAlive
  · rw [if_pos hid, pingBodies, List.filter_cons_of_pos (by simpa using hid)]
    rfl
  · rw [if_neg hid, pingBodies, List.filter_cons_of_neg (by simpa using hid)]
    rfl

theorem pongBodies_singleton (ids : PacketIDs) (f : WireFrame) :
    pongBodies ids [f] = if f.1.id = ids.keepAlive then [f.2] else [] := by
  by_cases hid : f.1.id = ids.keepAlive
  · rw [if_pos hid, pongBodies, List.filter_cons_of_pos (by simpa using hid)]
    rfl
  · rw [if_neg hid, pongBodies, List.filter_cons_of_neg (by simpa using hid)]
    rfl

/-- The messages pushed count the echoes taken off the stream. -/
theorem pongCount_eq {d : PacketDirection} {stream rest : List UInt8}
    {fs : List WireFrame} (hr : Reader ids d stream c fs rest) :
    pongCount ids c = (pongBodies ids fs).length := by
  have hheaders := congrArg (List.countP (·.id == ids.keepAlive))
    (Inbox.headers_of c.owner fs)
  rw [List.countP_map, List.countP_map, ← hr.messages] at hheaders
  rw [pongBodies, List.length_map, ← List.countP_eq_length_filter]
  exact hheaders

-- ================================================================ pings

variable (host) in
/-- `Ping::Write` puts the payload's eight bytes. -/
theorem ping_bodyOf (id : UInt8) (p : Ping) :
    bodyOf (p.toPacket host id) = leBytes 8 p.payload.toNat := by
  have hshort : (leBytes 8 p.payload.toNat).length ≤ uint32Max := by
    rw [Endian.leBytes_length]
    decide
  obtain ⟨body, -, hbody⟩ := @bodyOf_of_emits (p.toPacket host id) _
    (PacketBuffer.emits_putInt host 8 p.payload.toNat) hshort
  exact hbody

/-- A message made of a ping. -/
structure IsPing (ids : PacketIDs) (info : PacketSendInfo) : Prop where
  id : info.header.id = ids.keepAlive
  flags : info.header.flags = PacketFlags.none
  size : info.header.size.toNat ≥ 8
  body : info.body.bytesFrom 8 = bodyBytes info
  length : (bodyBytes info).length = 8

theorem isPing_of_prepared {p : Ping} (hcall : Prepared host call)
    (hpacket : call.packet = Ping.toPacket host ids.keepAlive p) :
    IsPing ids call.info := by
  have hlen : (bodyBytes call.info).length = 8 := by
    rw [← hcall.bodyOf, hpacket, ping_bodyOf, Endian.leBytes_length]
  have hnat : call.info.body.size.toNat = 8 := by
    rw [← hlen]
    exact call.info.body.bytes_length.symm
  have hsize : call.info.body.size = 8 := UInt32.toNat_inj.mp hnat
  refine ⟨?_, ?_, ?_, ?_, hlen⟩
  · rw [hcall.2, hpacket]
    rfl
  · rw [hcall.2]
    rfl
  · rw [hcall.2, makeInfo]
    dsimp only
    rw [hsize]
    cases host with
    | little => decide
    | big => decide
  · rw [bodyBytes, PacketBuffer.bytes, hnat]

/-- A KeepAlive that is sent is a ping. -/
theorem SendsPings.isPing {a : Connection.Action}
    (h : SendsPings host ids (.server a)) (ha : call.packet ∈ sends? a)
    (hcall : Prepared host call)
    (hid : call.info.header.id = ids.keepAlive) : IsPing ids call.info := by
  have hpacket : call.packet.id = ids.keepAlive := by
    rw [← hid, hcall.2]
    rfl
  obtain ⟨p, hp⟩ := h call.packet ha hpacket
  exact isPing_of_prepared hcall hp

/-- A server remembers the payload of a ping. -/
theorem IsPing.remembered {info : PacketSendInfo} (h : IsPing ids info)
    (hdir : c.mDirection = .toClient) :
    (remembered host ids c info).mLastKeepAliveValue
      = loadUInt64 host (bodyBytes info) := by
  rw [Connection.remembered, if_pos ⟨hdir, h.id, h.flags, h.size⟩, ← h.body]

/-- It remembers nothing of another message. -/
theorem remembered_of_ne {info : PacketSendInfo}
    (h : info.header.id ≠ ids.keepAlive) :
    remembered host ids c info = c :=
  if_neg fun hcaptures => h hcaptures.2.1

/-- What a step does to the pings on their way and to the payload
remembered; `n` and `m` pings are not counted before and after it. -/
inductive Speech (host : ByteOrder) (ids : PacketIDs) (n m : Nat)
    (c : Connection) (a : Connection.Action) (c' : Connection) : Prop
  | silent (hsent : c.sent <+: c'.sent)
      (hvalue : c'.mLastKeepAliveValue = c.mLastKeepAliveValue)
      (hpings : ∀ b ∈ pingsFrom ids m c', b ∈ pingsFrom ids n c)
  | ping (hsent : c.sent <+: c'.sent) (call : SendCall)
      (ha : call.packet ∈ sends? a) (hcall : Prepared host call)
      (hid : call.info.header.id = ids.keepAlive)
      (hvalue : c'.mLastKeepAliveValue
        = (remembered host ids c call.info).mLastKeepAliveValue)
      (hpings : ∀ b ∈ pingsFrom ids m c',
        b ∈ pingsFrom ids n c ∨ b = bodyBytes call.info)

/-- The pings a step leaves, where it posts `new` and leaves `calls`. -/
theorem of_mem_pingsFrom {new calls : List SendCall}
    (hsent : c'.sent = c.sent ++ new) (hcalls : c'.calls = calls)
    (hle : n ≤ m) (hb : b ∈ pingsFrom ids m c') :
    b ∈ (pingBodies ids c.sent).drop n ∨ b ∈ pingBodies ids new
      ∨ b ∈ pingBodies ids calls := by
  unfold pingsFrom at hb
  rw [hsent, hcalls, pingBodies_append, List.drop_append, List.append_assoc]
    at hb
  rcases List.mem_append.mp hb with hb | hb
  · exact .inl (List.drop_subset_drop_left _ hle hb)
  · rcases List.mem_append.mp hb with hb | hb
    · exact .inr (.inl (List.mem_of_mem_drop hb))
    · exact .inr (.inr hb)

/-- A `Send` up to its post, and the pings it leaves. -/
theorem speech_of_prepared {a : Connection.Action}
    (hsent : c.sent <+: c'.sent) (ha : call.packet ∈ sends? a)
    (hcall : Prepared host call)
    (hvalue : c'.mLastKeepAliveValue
      = (remembered host ids c call.info).mLastKeepAliveValue)
    (hpings : ∀ b ∈ pingsFrom ids m c',
      b ∈ pingsFrom ids n c ∨ b ∈ pingBodies ids [call]) :
    Speech host ids n m c a c' := by
  rw [pingBodies_singleton] at hpings
  by_cases hid : call.info.header.id = ids.keepAlive
  · rw [if_pos hid] at hpings
    refine .ping hsent call ha hcall hid hvalue fun b hb => ?_
    exact (hpings b hb).imp_right List.mem_singleton.mp
  · rw [if_neg hid] at hpings
    rw [remembered_of_ne hid] at hvalue
    refine .silent hsent hvalue fun b hb => ?_
    exact (hpings b hb).resolve_right List.not_mem_nil

/-- Pings that stay where they are. -/
theorem speech_of_same {a : Connection.Action}
    (hvalue : c'.mLastKeepAliveValue = c.mLastKeepAliveValue)
    (hsent : c'.sent = c.sent) (hcalls : c'.calls = c.calls) (hle : n ≤ m) :
    Speech host ids n m c a c' := by
  have hnone : c'.sent = c.sent ++ [] := by rw [hsent, List.append_nil]
  refine .silent (hnone ▸ List.prefix_append _ _) hvalue fun b hb => ?_
  rcases of_mem_pingsFrom hnone hcalls hle hb with hb | hb | hb
  · exact List.mem_append_left _ hb
  · cases hb
  · exact List.mem_append_right _ hb

theorem judged_sent (c : Connection) (payload : UInt64) (now : TimePoint) :
    (judged c payload now).sent = c.sent
      ∧ (judged c payload now).calls = c.calls
      ∧ (judged c payload now).mLastKeepAliveValue
        = c.mLastKeepAliveValue := by
  unfold judged
  split
  · exact ⟨by simp [Connection.sent, Obs.call?], rfl, rfl⟩
  · exact ⟨by simp [Connection.sent, Obs.call?], rfl, rfl⟩

/-- Every step of the server speaks so. -/
theorem speech_of_beat {a : Connection.Action} (hb : Beat host ids c a c')
    (hle : n ≤ m) : Speech host ids n m c a c' := by
  cases hb with
  | quiet _ _ hpulse =>
      obtain ⟨hvalue, -, -, hcalls, hsent⟩ := fields_of_pulse hpulse
      exact speech_of_same hvalue hsent hcalls hle
  | judged payload now _ _ hpulse =>
      obtain ⟨hvalue, -, -, hcalls, hsent⟩ := fields_of_pulse hpulse
      obtain ⟨hsent', hcalls', hvalue'⟩ := judged_sent c payload now
      exact speech_of_same (hvalue.trans hvalue') (hsent.trans hsent')
        (hcalls.trans hcalls') hle
  | prepared call ha hcall hpulse =>
      have hposts := remembered_posts host ids c call.info
      obtain ⟨hvalue, -, -, hcalls, hsent⟩ := fields_of_pulse hpulse
      have hnone := hsent.trans hposts.sent
      refine speech_of_prepared (hnone ▸ List.prefix_append _ _)
        (by rw [ha]; rfl) hcall hvalue fun b hb => ?_
      rcases of_mem_pingsFrom hnone hcalls hle hb
        with hb | hb | hb
      · exact .inl (List.mem_append_left _ hb)
      · cases hb
      · dsimp only at hb
        rw [pingBodies_append, hposts.calls] at hb
        exact (List.mem_append.mp hb).imp_left (List.mem_append_right _)
  | sent call ha hcall hpulse =>
      have hposts := remembered_posts host ids c call.info
      obtain ⟨hvalue, -, -, hcalls, hsent⟩ := fields_of_pulse hpulse
      rw [post_sent, hposts.sent, List.append_nil] at hsent
      refine speech_of_prepared (hsent ▸ List.prefix_append _ _)
        (by rw [ha]; rfl) hcall hvalue fun b hb => ?_
      rcases of_mem_pingsFrom hsent (hcalls.trans hposts.calls) hle hb
        with hb | hb | hb
      · exact .inl (List.mem_append_left _ hb)
      · exact .inr hb
      · exact .inl (List.mem_append_right _ hb)
  | posted i call _ hcall hpulse =>
      obtain ⟨hvalue, -, -, hcalls, hsent⟩ := fields_of_pulse hpulse
      rw [post_sent] at hsent
      refine .silent (hsent ▸ List.prefix_append _ _) hvalue fun b hb => ?_
      rcases of_mem_pingsFrom hsent hcalls hle hb with hb | hb | hb
      · exact List.mem_append_left _ hb
      · have hmem : [call] ⊆ c.calls :=
          List.cons_subset.mpr
            ⟨List.mem_of_getElem? hcall, List.nil_subset _⟩
        exact List.mem_append_right _ (pingBodies_subset hmem hb)
      · exact List.mem_append_right _
          (pingBodies_subset List.eraseIdx_subset hb)

/-- Messages posted stay posted. -/
theorem Speech.sent_prefix {a : Connection.Action}
    (h : Speech host ids n m c a c') : c.sent <+: c'.sent := by
  cases h with
  | silent hsent => exact hsent
  | ping hsent => exact hsent

-- =============================================================== echoes

/-- The client's bytes reach the server's reader. -/
theorem reader_hear {d : PacketDirection} {stream rest : List UInt8}
    {fs : List WireFrame} (hr : Reader ids d stream c fs rest)
    (bytes : List UInt8) :
    Reader ids d (stream ++ bytes)
      { c with incoming := c.incoming ++ bytes } fs (rest ++ bytes) := by
  have hnext {v : Verdict} (h : NextIs ids c.mDirection rest v) :
      NextIs ids c.mDirection (rest ++ bytes) v := by
    obtain ⟨f, rest', hn, hf⟩ := h
    exact ⟨f, rest' ++ bytes, frames.next_append_right hn bytes, hf⟩
  refine ⟨⟨hr.cursor.append bytes, hr.delivered, hr.messages, hr.connecting,
    hr.direction⟩, ?_, ?_, ?_⟩
  · cases hr.awaiting with
    | header hreads hbody => exact .header hreads hbody
    | body hb bs hlen hsize hheader hreads hbody hbs =>
        rw [List.append_assoc]
        exact .body hb bs hlen hsize hheader hreads hbody hbs
    | done rest hreads => exact .done (rest ++ bytes) hreads
  · intro hreads hopen hesc
    exact hnext (hr.idle hreads hopen hesc)
  · intro e he hdir
    exact hnext (hr.thrown e he hdir)

/-- A client's frame behind whole frames is split off as it was meant. -/
theorem split_hear {stream body : List UInt8} (id : UInt8)
    (flags : PacketFlags) (hwhole : (frames.split stream).2 = [])
    (hlen : body.length ≤ 65535) :
    frames.split (stream ++ clientFrame id flags body)
      = ((frames.split stream).1
          ++ [(⟨id, flags, UInt16.ofNat body.length⟩, body)], []) := by
  obtain ⟨hb, hhb⟩ : ∃ hb : List UInt8, hb = [id, flags,
      UInt8.ofNat (body.length / 256), UInt8.ofNat body.length] := ⟨_, rfl⟩
  have hdecode : decodeHeader hb
      = ⟨id, flags, UInt16.ofNat body.length⟩ := by
    rw [hhb, decodeHeader]
    congr 2
    simp only [UInt8.toNat_ofNat']
    omega
  have hf : frames.IsFrame hb body := by
    refine ⟨by rw [hhb]; rfl, ?_⟩
    show body.length = (decodeHeader hb).size.toNat
    rw [hdecode, UInt16.toNat_ofNat', Nat.mod_eq_of_lt (by omega)]
  have hone := frames.split_cons hf []
  rw [List.append_nil, frames.split_nil] at hone
  rw [clientFrame, ← hhb, frames.split_append hwhole, hone, ← hdecode]
  rfl

/-- The echoes in the client's stream are the pings it has received. -/
structure Linked (ids : PacketIDs) (s : Session) : Prop where
  reader : ∃ fs rest, Reader ids .toClient s.stream s.server fs rest
  whole : (frames.split s.stream).2 = []
  read_le : s.read ≤ s.server.sent.length
  echoes : pongBodies ids (frames.split s.stream).1
    = pingBodies ids (s.server.sent.take s.read)
  /-- Every KeepAlive prepared has a ping's body. -/
  pings : ∀ b ∈ pingsFrom ids 0 s.server, b.length = 8

theorem linked_start (self : Nat) (now : TimePoint) :
    Linked ids (start self now) := by
  refine ⟨⟨[], [], (listening_started self [] now).reader⟩, rfl, ?_, rfl, ?_⟩
  · exact Nat.zero_le _
  · intro b hb
    cases hb

/-- The KeepAlive awaited is the body of a ping not answered before. -/
theorem Linked.pong_unanswered (h : Linked ids s)
    (hpong : IsPong ids s.server.mWipInMessage.header)
    (hmem : .body n ∈ s.server.reads) (hlen : n ≤ s.server.incoming.length) :
    s.server.incoming.take 8 ∈ unanswered ids s.server := by
  obtain ⟨fs, rest, hr⟩ := h.reader
  obtain ⟨hb, bs, hhb, hrest, hheader, hn, -, -⟩ :=
    hr.awaiting.of_mem_body hmem
  have h8 : (decodeHeader hb).size.toNat = 8 := by
    rw [← hheader, hpong.2.2]
    rfl
  -- it is the next frame, so its place among the echoes is after those read
  have hnext := @next_of_header hb s.server.incoming hhb (hn ▸ hlen)
  rw [h8, ← hrest] at hnext
  have hframes := hr.cursor.frames
  rw [frames.split_of_next_some hnext, List.append_cons] at hframes
  have hechoes := h.echoes
  rw [hframes, pongBodies_append, pongBodies_append, pongBodies_singleton,
    if_pos (by rw [← hheader]; exact hpong.1), List.append_assoc] at hechoes
  have hsent := congrArg (pingBodies ids)
    (List.take_append_drop s.read s.server.sent)
  rw [pingBodies_append, ← hechoes, List.append_assoc] at hsent
  refine List.mem_append_left _ ?_
  rw [pongCount_eq hr, ← hsent, List.drop_left]
  exact List.mem_append_left _ (List.mem_append_left _
    (List.mem_singleton_self _))

/-- The next KeepAlive the server judges answers a ping not answered
before. -/
theorem Linked.pong (h : Linked ids s) {a : Connection.Action}
    {payload : UInt64} (hp : pong? host ids s.server a = some payload) :
    ∃ b ∈ unanswered ids s.server, loadUInt64 host b = payload := by
  cases a with
  | readDone op ok now =>
      cases op with
      | header => cases hp
      | body n =>
          cases ok with
          | false => cases hp
          | true =>
              rw [pong?] at hp
              split at hp
              case isFalse => cases hp
              case isTrue hcond =>
                obtain ⟨hpong, hmem, hlen⟩ := hcond
                injection hp with hp
                exact ⟨_, h.pong_unanswered hpong hmem hlen, hp⟩
  | _ => cases hp

-- ================================================================ steps

/-- The client's bytes are a frame that is no KeepAlive, or the echo of
the pings received since. -/
theorem Linked.hear (h : Linked ids s) {id : UInt8} {flags : PacketFlags}
    {body : List UInt8} {read : Nat} (hlen : body.length ≤ 65535)
    (hread : read ≤ s.server.sent.length)
    (hechoes : pingBodies ids (s.server.sent.take read)
      = pingBodies ids (s.server.sent.take s.read)
        ++ if id = ids.keepAlive then [body] else []) :
    Linked ids (Session.hear { s with read := read }
      (clientFrame id flags body)) := by
  obtain ⟨fs, rest, hr⟩ := h.reader
  have hsplit := split_hear id flags h.whole hlen
  refine ⟨⟨fs, _, reader_hear hr _⟩, ?_, hread, ?_, h.pings⟩
  · show (frames.split (s.stream ++ _)).2 = []
    rw [hsplit]
  · show pongBodies ids (frames.split (s.stream ++ _)).1
      = pingBodies ids (s.server.sent.take read)
    rw [hsplit, pongBodies_append, h.echoes, pongBodies_singleton, hechoes]

/-- The client's events keep the link, and leave the rest of the server
alone. -/
theorem Linked.receive (h : Linked ids s) (hs : s.receive ids = some s') :
    Linked ids s'
      ∧ ∃ bytes, s'.server = { s.server with incoming := bytes } := by
  unfold Session.receive at hs
  split at hs
  case h_1 => cases hs
  case h_2 call hcall =>
    obtain ⟨hlt, -⟩ := List.getElem?_eq_some_iff.mp hcall
    have hechoes : pingBodies ids (s.server.sent.take (s.read + 1))
        = pingBodies ids (s.server.sent.take s.read)
          ++ if call.info.header.id = ids.keepAlive then [bodyBytes call.info]
            else [] := by
      rw [List.take_add_one, hcall, pingBodies_append]
      exact congrArg _ (pingBodies_singleton ids call)
    dsimp only at hs
    by_cases hid : call.info.header.id = ids.keepAlive
    · rw [if_pos hid, Option.some.injEq] at hs
      rw [if_pos hid] at hechoes
      have hbody : (bodyBytes call.info).length = 8 := by
        refine h.pings _ (List.mem_append_left _ ?_)
        exact mem_pingBodies (List.mem_of_getElem? hcall) hid
      subst hs
      refine ⟨h.hear (by omega) hlt ?_, _, rfl⟩
      rw [if_pos rfl]
      exact hechoes
    · rw [if_neg hid, Option.some.injEq] at hs
      rw [if_neg hid, List.append_nil] at hechoes
      subst hs
      exact ⟨⟨h.reader, h.whole, hlt, h.echoes.trans hechoes.symm, h.pings⟩,
        _, rfl⟩

theorem Linked.say (h : Linked ids s) {id : UInt8} {flags : PacketFlags}
    {body : List UInt8} (hid : id ≠ ids.keepAlive)
    (hlen : body.length ≤ 65535) :
    Linked ids (s.hear (clientFrame id flags body)) := by
  refine h.hear hlen h.read_le ?_
  rw [if_neg hid, List.append_nil]

/-- The server's events keep the link. -/
theorem Linked.server (h : Linked ids s) {a : Connection.Action}
    (hpings : SendsPings host ids (.server a))
    (hs : Connection.step host ids a s.server = some c') :
    Linked ids { s with server := c' }
      ∧ Speech host ids (pongCount ids s.server) (pongCount ids c') s.server a
        c' := by
  obtain ⟨fs, rest, hr⟩ := h.reader
  obtain ⟨fs', rest', hr', hfs⟩ := reader_step hr hs
  have hbeat := step_beat hr.direction hr hs
  have hcount : pongCount ids s.server ≤ pongCount ids c' := by
    obtain ⟨more, rfl⟩ := hfs
    rw [pongCount_eq hr, pongCount_eq hr', pongBodies_append,
      List.length_append]
    omega
  have hall : Speech host ids 0 0 s.server a c' :=
    speech_of_beat hbeat (Nat.le_refl 0)
  obtain ⟨new, hsent⟩ := hall.sent_prefix
  refine ⟨⟨⟨fs', rest', hr'⟩, h.whole, ?_, ?_, ?_⟩,
    speech_of_beat hbeat hcount⟩
  · show s.read ≤ c'.sent.length
    have hle := h.read_le
    rw [← hsent, List.length_append]
    omega
  · show pongBodies ids (frames.split s.stream).1
      = pingBodies ids (c'.sent.take s.read)
    rw [← hsent, List.take_append_of_le_length h.read_le]
    exact h.echoes
  · intro b hb
    cases hall with
    | silent _ _ hsub => exact h.pings b (hsub b hb)
    | ping _ call ha hcall hid _ hsub =>
        rcases hsub b hb with hb | rfl
        · exact h.pings b hb
        · exact (hpings.isPing ha hcall hid).length

-- ========================================================= honest clients

/-- No client has been given up, the pings not answered carry the payload
remembered, and the server has kept its ledger. -/
structure Agreed (host : ByteOrder) (ids : PacketIDs) (now : TimePoint)
    (s : Session) : Prop extends Linked ids s where
  one : ∀ b ∈ unanswered ids s.server,
    loadUInt64 host b = s.server.mLastKeepAliveValue
  intact : ∀ payload, Obs.dropped payload ∉ s.server.hist
  ledger : Ledger now s.server

theorem agreed_start (self : Nat) (now : TimePoint) :
    Agreed host ids now (start self now) := by
  refine ⟨linked_start self now, fun b hb => ?_, fun payload hmem => ?_,
    ⟨rfl, rfl, Log.justified_nil⟩⟩
  · cases hb
  · cases hmem

/-- A step that judges no other payload than the one remembered gives
up no client. -/
theorem intact_of_beat {a : Connection.Action} (hb : Beat host ids c a c')
    (hright : ∀ payload, pong? host ids c a = some payload →
      payload = c.mLastKeepAliveValue)
    (h : ∀ payload, Obs.dropped payload ∉ c.hist) :
    ∀ payload, Obs.dropped payload ∉ c'.hist := by
  have happend {o : Obs} (hist : List Obs)
      (hhist : ∀ payload, Obs.dropped payload ∉ hist)
      (ho : ∀ payload, Obs.dropped payload ≠ o) :
      ∀ payload, Obs.dropped payload ∉ hist ++ [o] := by
    intro payload hmem
    rcases List.mem_append.mp hmem with hmem | hmem
    · exact hhist payload hmem
    · exact ho payload (List.mem_singleton.mp hmem)
  have hremembered (info : PacketSendInfo) :
      ∀ payload, Obs.dropped payload ∉ (remembered host ids c info).hist := by
    unfold remembered
    split
    · exact happend c.hist h fun _ => Obs.noConfusion
    · exact h
  cases hb with
  | quiet _ _ hpulse =>
      rw [(fields_of_pulse hpulse).2.2.1]
      exact h
  | prepared call _ _ hpulse =>
      rw [(fields_of_pulse hpulse).2.2.1]
      exact hremembered call.info
  | posted i call _ _ hpulse =>
      rw [(fields_of_pulse hpulse).2.2.1]
      exact happend c.hist h fun _ => Obs.noConfusion
  | sent call _ _ hpulse =>
      rw [(fields_of_pulse hpulse).2.2.1]
      exact happend _ (hremembered call.info) fun _ => Obs.noConfusion
  | judged payload now _ hp hpulse =>
      rw [(fields_of_pulse hpulse).2.2.1, judged, if_pos (hright payload hp)]
      exact happend c.hist h fun _ => Obs.noConfusion

/-- A guarded step of the server keeps the agreement. -/
theorem Agreed.server (h : Agreed host ids now s) {a : Connection.Action}
    (hpings : SendsPings host ids (.server a))
    (hone : OnePayload ids s (.server a))
    (hs : Connection.step host ids a s.server = some c') :
    Agreed host ids now { s with server := c' } := by
  obtain ⟨hlinked, hspeech⟩ := h.toLinked.server hpings hs
  obtain ⟨fs, rest, hr⟩ := h.reader
  have hbeat := step_beat hr.direction hr hs
  refine ⟨hlinked, ?_, intact_of_beat hbeat ?_ h.intact,
    hbeat.ledger h.ledger⟩
  · intro b hb
    cases hspeech with
    | silent _ hvalue hsub =>
        exact (h.one b (hsub b hb)).trans hvalue.symm
    | ping _ call ha hcall hid hvalue hsub =>
        have hpacket : call.packet.id = ids.keepAlive := by
          rw [← hid, hcall.2]
          rfl
        -- the new ping's body is that of all pings not answered
        have hbody : b = bodyBytes call.info := by
          rcases hsub b hb with hb | hb
          · rw [hone call.packet ha hpacket b hb, hcall.bodyOf]
          · exact hb
        have hping := hpings.isPing ha hcall hid
        rw [hbody]
        exact (hping.remembered hr.direction).symm.trans hvalue.symm
  · intro payload hp
    obtain ⟨b, hb, hpayload⟩ := h.toLinked.pong hp
    rw [← hpayload]
    exact h.one b hb

/-- The client's events keep it too. -/
theorem Agreed.client (h : Agreed host ids now s) (hlinked : Linked ids s')
    {bytes : List UInt8}
    (hserver : s'.server = { s.server with incoming := bytes }) :
    Agreed host ids now s' := by
  refine ⟨hlinked, ?_, ?_, ?_⟩
  · rw [hserver]
    exact h.one
  · rw [hserver]
    exact h.intact
  · rw [hserver]
    exact h.ledger.of_pulse rfl

/-- Every guarded step keeps the agreement. -/
theorem Agreed.step (h : Agreed host ids now s) {a : Action}
    (hpings : SendsPings host ids a) (hone : OnePayload ids s a)
    (hs : Session.step host ids a s = some s') : Agreed host ids now s' := by
  cases a with
  | server a =>
      obtain ⟨c', hc', rfl⟩ := Option.map_eq_some_iff.mp hs
      exact h.server hpings hone hc'
  | receive =>
      obtain ⟨hlinked, bytes, hserver⟩ := h.toLinked.receive hs
      exact h.client hlinked hserver
  | say id flags body =>
      unfold Session.step at hs
      dsimp only at hs
      split at hs
      case isTrue hsay =>
        rw [Option.some.injEq] at hs
        subst hs
        exact h.client (h.toLinked.say hsay.1 hsay.2) rfl
      case isFalse => cases hs

/-- No verdict has been against the client, and what the client is judged
by is the time of the accept or that of an echo. -/
theorem Agreed.trusted (h : Agreed host ids now s) :
    (∀ payload, Obs.dropped payload ∉ s.server.hist)
      ∧ (s.server.mLastKeepAlive = now
        ∨ ∃ payload,
          Obs.refreshed payload s.server.mLastKeepAlive ∈ s.server.hist) :=
  ⟨h.intact, h.ledger.time_of_intact h.intact⟩

/-- In a run in which no ping is sent while one with another payload is
unanswered, a client that echoes its pings in order is never given up:
the time it was last heard of is that of the accept or of an echo. -/
theorem one_payload_never_drops {self : Nat} {acts : List Action}
    (hrun : Lts.run (Session.step host ids) (start self now) acts = some s)
    (hpings : ∀ a ∈ acts, SendsPings host ids a)
    (hone : Lts.Meets (Session.step host ids) (OnePayload ids)
      (start self now) acts) :
    (∀ payload, Obs.dropped payload ∉ s.server.hist)
      ∧ (s.server.mLastKeepAlive = now
        ∨ ∃ payload,
          Obs.refreshed payload s.server.mLastKeepAlive ∈ s.server.hist) := by
  have hagreed : Agreed host ids now s := by
    refine Lts.run_invariant_of_meets (Agreed host ids now) ?_
      (agreed_start self now) (hone.and_forall hpings) hrun
    intro s a s' h hguard hs
    exact h.step hguard.2 hguard.1 hs
  exact hagreed.trusted

/-- Sending a ping is sending pings. -/
theorem sendsPings_ping (p : Ping) :
    SendsPings host ids (.server (.send (p.toPacket host ids.keepAlive))) := by
  intro packet hpacket _
  exact ⟨p, (Option.mem_some_iff.mp hpacket).symm⟩

/-- So is sending nothing. -/
theorem sendsPings_of_none {a : Connection.Action} (ha : sends? a = none) :
    SendsPings host ids (.server a) := by
  intro packet hpacket
  rw [ha] at hpacket
  cases hpacket

/-- A ping, written, received, echoed and accepted. -/
theorem one_payload_never_drops_echo :
    ∃ s, Lts.run (Session.step .little ⟨1, 2⟩) (start 0 0)
        [.server (.send (Ping.toPacket .little 1 ⟨7⟩)), .server .posted,
          .server (.writeDone .header true 1),
          .server (.writeDone .body true 2), .receive,
          .server (.readDone .header true 3),
          .server (.readDone (.body 8) true 4)] = some s
      ∧ s.server.hist.countP (Obs.refreshes 7) = 1
      ∧ (∀ payload, Obs.dropped payload ∉ s.server.hist)
      ∧ (s.server.mLastKeepAlive = 0
        ∨ ∃ payload,
          Obs.refreshed payload s.server.mLastKeepAlive ∈ s.server.hist) := by
  have hend : (Lts.run (Session.step .little ⟨1, 2⟩) (start 0 0)
      [.server (.send (Ping.toPacket .little 1 ⟨7⟩)), .server .posted,
        .server (.writeDone .header true 1),
        .server (.writeDone .body true 2), .receive,
        .server (.readDone .header true 3),
        .server (.readDone (.body 8) true 4)]).map (fun s =>
          s.server.hist.countP (Obs.refreshes 7)) = some 1 := by
    decide +kernel
  obtain ⟨s, hrun, hcount⟩ := Option.map_eq_some_iff.mp hend
  refine ⟨s, hrun, hcount, one_payload_never_drops hrun ?_ ?_⟩
  · simp only [List.forall_mem_cons]
    exact ⟨sendsPings_ping ⟨7⟩, sendsPings_of_none rfl,
      sendsPings_of_none rfl, sendsPings_of_none rfl, trivial,
      sendsPings_of_none rfl, sendsPings_of_none rfl, List.forall_mem_nil _⟩
  · decide +kernel

/-- A history with a rejected payload. -/
theorem mem_of_any_drops {hist : List Obs} {payload : UInt64}
    (h : hist.any (Obs.drops payload) = true) : Obs.dropped payload ∈ hist := by
  obtain ⟨o, hmem, ho⟩ := List.any_eq_true.mp h
  cases o with
  | dropped p =>
      have hp : p = payload := beq_iff_eq.mp ho
      rw [← hp]
      exact hmem
  | _ => cases ho

/-- Two pings, written before the first is echoed. -/
theorem two_payloads_drop :
    ¬ ∀ (host : ByteOrder) (ids : PacketIDs) (self : Nat) (now : TimePoint)
        (acts : List Action) (s : Session) (payload : UInt64),
      Lts.run (Session.step host ids) (start self now) acts = some s →
      (∀ a ∈ acts, SendsPings host ids a) →
      Obs.dropped payload ∉ s.server.hist := by
  intro h
  have hend : (Lts.run (Session.step .little ⟨1, 2⟩) (start 0 0)
      [.server (.send (Ping.toPacket .little 1 ⟨1⟩)),
        .server (.send (Ping.toPacket .little 1 ⟨2⟩)), .server .posted,
        .server (.writeDone .header true 1),
        .server (.writeDone .body true 2), .receive,
        .server (.readDone .header true 3),
        .server (.readDone (.body 8) true 4)]).map (fun s =>
          s.server.hist.any (Obs.drops 1)) = some true := by
    decide +kernel
  obtain ⟨s, hrun, hany⟩ := Option.map_eq_some_iff.mp hend
  refine h .little ⟨1, 2⟩ 0 0 _ s 1 hrun ?_ (mem_of_any_drops hany)
  simp only [List.forall_mem_cons]
  exact ⟨sendsPings_ping ⟨1⟩, sendsPings_ping ⟨2⟩, sendsPings_of_none rfl,
    sendsPings_of_none rfl, sendsPings_of_none rfl, trivial,
    sendsPings_of_none rfl, sendsPings_of_none rfl, List.forall_mem_nil _⟩

end Session

end AWEnginePacket
