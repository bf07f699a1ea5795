/-
The payload of a KeepAlive between two hosts.

# The way of a payload

A ping's body is the payload in little-endian bytes, whatever the host.
`Send` remembers what its own host loads from these bytes, and the
server later loads the answer's bytes the same way, so the server's byte
order does not matter. The client loads the payload raw and gives it to
the constructor of a new ping, which converts it once more: a big-endian
client answers with the bytes reversed (`pong_matches_iff`).

# What `Send` remembers

The test for eight bytes is made on the header's size field, which has
been converted to big-endian by then. On a little-endian host it is a
test of the swapped length (`stores_iff`).
-/
import AWEnginePacket.Proofs.Session

namespace AWEnginePacket

open Endian (ByteOrder leBytes ofLe bswap)
open Effect

-- ================================================================ payloads

/-- Eight bytes hold a 64-bit number. -/
theorem leBytes_uint64 (x : UInt64) : x.toNat < 256 ^ 8 := x.toNat_lt

theorem leBytes_inj {x y : UInt64}
    (h : leBytes 8 x.toNat = leBytes 8 y.toNat) : x = y := by
  have hx := Endian.ofLe_leBytes_of_lt (leBytes_uint64 x)
  rw [h, Endian.ofLe_leBytes_of_lt (leBytes_uint64 y)] at hx
  exact UInt64.toNat_inj.mp hx.symm

/-- The payload a host loads from the eight bytes of another. -/
theorem toNat_loadUInt64 (host : ByteOrder) (x : UInt64) :
    (loadUInt64 host (leBytes 8 x.toNat)).toNat
      = match host with
        | .little => x.toNat
        | .big => bswap 8 x.toNat := by
  rw [loadUInt64]
  cases host with
  | little =>
      rw [ByteOrder.load, Endian.ofLe_leBytes_of_lt (leBytes_uint64 x)]
      exact UInt64.toNat_ofNat_of_lt' x.toNat_lt
  | big => exact UInt64.toNat_ofNat_of_lt' (Endian.bswap_lt 8 x.toNat)

/-- The first bytes of a buffer that has them. -/
theorem PacketBuffer.bytesFrom_eq_take {b : PacketBuffer} {n : Nat}
    (h : n ≤ b.bytes.length) : b.bytesFrom n = b.bytes.take n := by
  rw [b.bytes_length] at h
  rw [bytes, bytesFrom, bytesFrom, ← List.map_take, List.take_range,
    Nat.min_eq_left h]

namespace Connection

variable {host server client : ByteOrder} {ids : PacketIDs}
  {c c' : Connection} {packet : IPacket} {body : PacketBuffer}
  {now : TimePoint}

-- ================================================================== pings

/-- The message of a ping carries the payload in little-endian bytes. -/
theorem ping_message (host : ByteOrder) (id : UInt8) (payload : UInt64) :
    ∃ body, (Ping.toPacket host id ⟨payload⟩).write.run {} = .ok ⟨⟩ body
      ∧ body.bytes = leBytes 8 payload.toNat := by
  obtain ⟨body, hrun, hbody⟩ := @bodyOf_of_emits
    (Ping.toPacket host id ⟨payload⟩) _
    (PacketBuffer.emits_putInt host 8 payload.toNat)
    (by rw [Endian.leBytes_length]; decide)
  rw [bodyOf, hrun] at hbody
  exact ⟨body, hrun, hbody⟩

/-- The method returns and has posted this message, and no other. -/
def Posts1 (m : ConnM PUnit) (c : Connection) (info : PacketSendInfo)
    (c' : Connection) : Prop :=
  m.run c = .ok ⟨⟩ c' ∧ c'.posted = c.posted ++ [.queueMessage info]

variable (host ids) in
/-- `Send` from a connected connection. -/
theorem posts_send (hc : c.isConnected = true)
    (hw : packet.write.run {} = .ok ⟨⟩ body) :
    Posts1 (send host ids packet) c (makeInfo host packet body)
      (after (post ⟨packet, makeInfo host packet body⟩)
        (remembered host ids c (makeInfo host packet body))) := by
  have hprepare := prepare_run host ids packet c
  rw [if_pos hc, hw] at hprepare
  refine ⟨run_bind_of_ok hprepare, ?_⟩
  have hposted := (remembered_posts host ids c
    (makeInfo host packet body)).posted
  rw [List.map_nil, List.append_nil] at hposted
  show (remembered host ids c _).posted ++ _ = _
  rw [hposted]

/-- A well-formed KeepAlive with this body is the message received. -/
structure Received (ids : PacketIDs) (c : Connection) (body : List UInt8) :
    Prop where
  header : IsPong ids c.mWipInMessage.header
  body : c.mWipInMessage.body.bytes = body

theorem Received.payload {payload : UInt64}
    (h : Received ids c (leBytes 8 payload.toNat)) (host : ByteOrder) :
    loadUInt64 host (c.mWipInMessage.body.bytesFrom 8)
      = loadUInt64 host (leBytes 8 payload.toNat) := by
  have hlen : c.mWipInMessage.body.bytes.length = 8 := by
    rw [h.body, Endian.leBytes_length]
  rw [PacketBuffer.bytesFrom_eq_take (by omega),
    List.take_of_length_le (by omega), h.body]

-- ================================================================= answers

/-- A well-formed KeepAlive at a client is its answer. -/
theorem keepAliveReceived_client {msg : PacketSendInfo}
    (hdir : c.mDirection = .toServer)
    (hflags : msg.header.flags = PacketFlags.none)
    (hsize : msg.header.size = 8)
    (hsend : (send host ids (Ping.toPacket host ids.keepAlive
        ⟨loadUInt64 host (msg.body.bytesFrom 8)⟩)).run
      { c with mLastKeepAlive := now } = .ok ⟨⟩ c') :
    (keepAliveReceived host ids msg now).run c = .ok ⟨⟩ c' := by
  have hside := ((send_keeps_reading _).of_ok hsend).1
  have hsame : c'.mDirection = c.mDirection :=
    congrArg (fun side => side.2.2.2.2.1) hside
  have hnot : c'.mDirection ≠ .toClient := by
    rw [hsame, hdir]
    exact PacketDirection.noConfusion
  unfold keepAliveReceived
  dsimp only
  rw [if_neg (not_not_intro hflags), if_neg (not_not_intro hsize),
    EStateM.run_bind, EStateM.run_get]
  dsimp only
  rw [if_pos hdir]
  refine (run_bind_of_ok hsend).trans ?_
  rw [EStateM.run_bind, EStateM.run_get]
  dsimp only
  rw [if_neg hnot]
  rfl

variable (host ids) in
/-- So it posts a ping with the payload as the client loads it. -/
theorem posts_answer (hdir : c.mDirection = .toServer)
    (hc : c.isConnected = true) {payload : UInt64}
    (hr : Received ids c (leBytes 8 payload.toNat)) (now : TimePoint) :
    ∃ c₁ pong, Posts1 (addToIncomingMessageQueue host ids now) c pong c₁
      ∧ pong.body.bytes
        = leBytes 8 (loadUInt64 host (leBytes 8 payload.toNat)).toNat := by
  obtain ⟨hid, hflags, hsize⟩ := hr.header
  rw [← hr.payload host]
  obtain ⟨body, hw, hbody⟩ := ping_message host ids.keepAlive
    (loadUInt64 host (c.mWipInMessage.body.bytesFrom 8))
  obtain ⟨s₁, hsend, hposted⟩ : ∃ s₁, Posts1 _ _ _ s₁ :=
    ⟨_, posts_send host ids (c := { c with
      mLastReceivedMessageTime := now
      mReceivedPacketCount := c.mReceivedPacketCount + 1
      mLastKeepAlive := now }) hc hw⟩
  have hkeepAlive := keepAliveReceived_client
    (c := { c with mLastReceivedMessageTime := now
                   mReceivedPacketCount := c.mReceivedPacketCount + 1 })
    hdir hflags hsize hsend
  have hfile : ¬(c.mWipInMessage.header.id = ids.init
      ∧ c.mDirection = .toClient) := by
    rw [hdir]
    rintro ⟨-, h⟩
    cases h
  have hrun (s : Connection) : (fileMessage host ids c).run s
      = .ok ⟨⟩ { s with
        mMessagesIn := s.mMessagesIn ++ [⟨c.owner, c.mWipInMessage⟩]
        reads := s.reads ++ [.header] } := by
    rw [fileMessage, if_neg hfile]
    rfl
  refine ⟨{ s₁ with
    mMessagesIn := s₁.mMessagesIn ++ [⟨c.owner, c.mWipInMessage⟩]
    reads := s₁.reads ++ [.header] }, _, ⟨?_, hposted⟩, hbody⟩
  rw [addToIncomingMessageQueue_run, if_pos hid, run_bind_of_ok hkeepAlive,
    hrun]

theorem Posts1.unique {m : ConnM PUnit} {c₁ c₂ : Connection}
    {info info' : PacketSendInfo} (h : Posts1 m c info c₁)
    (h' : Posts1 m c info' c₂) : info = info' ∧ c₁ = c₂ := by
  have hrun := h.1.symm.trans h'.1
  injection hrun with _ hc
  refine ⟨?_, hc⟩
  have hposted := h.2.symm.trans ((congrArg posted hc).trans h'.2)
  have hlast := List.append_cancel_left hposted
  injection hlast with hhandler
  injection hhandler

variable (host ids) in
/-- A server sends a ping: its body, and the value remembered. -/
theorem posts_ping (hdir : c.mDirection = .toClient)
    (hc : c.isConnected = true) (payload : UInt64) :
    ∃ c₁ ping, Posts1 (send host ids
        (Ping.toPacket host ids.keepAlive ⟨payload⟩)) c ping c₁
      ∧ ping.body.bytes = leBytes 8 payload.toNat
      ∧ c₁.mLastKeepAliveValue
        = loadUInt64 host (leBytes 8 payload.toNat) := by
  obtain ⟨body, hw, hbody⟩ := ping_message host ids.keepAlive payload
  obtain ⟨call, hcall⟩ : ∃ call : SendCall, call
      = ⟨Ping.toPacket host ids.keepAlive ⟨payload⟩, makeInfo host
        (Ping.toPacket host ids.keepAlive ⟨payload⟩) body⟩ := ⟨_, rfl⟩
  have hprepared : Prepared host call := by
    rw [hcall]
    exact ⟨hw, rfl⟩
  have hpacket : call.packet = Ping.toPacket host ids.keepAlive ⟨payload⟩ :=
    by rw [hcall]
  have hping := Session.isPing_of_prepared hprepared hpacket
  refine ⟨_, _, posts_send host ids hc hw, hbody, ?_⟩
  have hvalue := @Session.IsPing.remembered host ids c call.info hping hdir
  rw [hcall, bodyBytes] at hvalue
  refine hvalue.trans ?_
  show loadUInt64 host body.bytes = _
  rw [hbody]

/-- The pong matches: a server's connection sends a ping with the
payload, a client's connection that has received its body answers with
the same body, and a server's connection that has remembered nothing
else takes this answer for the right one. -/
def PongMatches (server client : ByteOrder) (ids : PacketIDs)
    (payload : UInt64) : Prop :=
  ∀ s : Connection, s.mDirection = .toClient → s.isConnected = true →
    ∃ s₁ ping, Posts1 (send server ids
        (Ping.toPacket server ids.keepAlive ⟨payload⟩)) s ping s₁
    ∧ ∀ (c : Connection) (now : TimePoint), c.mDirection = .toServer →
      c.isConnected = true → Received ids c ping.body.bytes →
      ∃ c₁ pong, Posts1 (addToIncomingMessageQueue client ids now) c pong c₁
      ∧ pong.body.bytes = ping.body.bytes
      ∧ ∀ (s₂ : Connection) (later : TimePoint),
        s₂.mDirection = .toClient →
        s₂.mLastKeepAliveValue = s₁.mLastKeepAliveValue →
        Received ids s₂ pong.body.bytes →
        (runHandler .read (addToIncomingMessageQueue server ids later)
          s₂).mLastKeepAlive = later

/-- What matches has been loaded as it was meant. -/
theorem loaded_of_pong_matches {payload : UInt64}
    (h : PongMatches server client ids payload) :
    loadUInt64 client (leBytes 8 payload.toNat) = payload := by
  obtain ⟨s₁, ping, hsend, hanswers⟩ :=
    h (create 0 .toClient true [] 0) rfl rfl
  obtain ⟨s₁', ping', hsend', hping, -⟩ := posts_ping server ids
    (c := create 0 .toClient true [] 0) rfl rfl payload
  rw [(hsend.unique hsend').1, hping] at hanswers
  -- a client that has received the body
  obtain ⟨c, hc⟩ : ∃ c, c = { create 0 .toServer true [] 0 with
      mWipInMessage := ⟨⟨ids.keepAlive, PacketFlags.none, 8⟩,
        ⟨leBytes 8 payload.toNat, 0⟩⟩ } := ⟨_, rfl⟩
  have hdir : c.mDirection = .toServer := by rw [hc]; rfl
  have hconnected : c.isConnected = true := by rw [hc]; rfl
  have hbytes : PacketBuffer.bytes ⟨leBytes 8 payload.toNat, 0⟩
      = leBytes 8 payload.toNat :=
    PacketBuffer.bytes_of_unread (PacketBuffer.unread_fresh
      (by rw [Endian.leBytes_length]; decide))
  have hr : Received ids c (leBytes 8 payload.toNat) := by
    rw [hc]
    exact ⟨⟨rfl, rfl, rfl⟩, hbytes⟩
  obtain ⟨c₁, pong, hanswer, hpong, -⟩ := hanswers c 0 hdir hconnected hr
  obtain ⟨c₁', pong', hanswer', hpong'⟩ :=
    posts_answer client ids hdir hconnected hr 0
  rw [(hanswer.unique hanswer').1, hpong'] at hpong
  exact leBytes_inj hpong

/-- It matches if and only if the client is little-endian or the payload
reads the same backwards. -/
theorem pong_matches_iff (server client : ByteOrder) (ids : PacketIDs)
    (payload : UInt64) :
    PongMatches server client ids payload
      ↔ client = .little ∨ bswap 8 payload.toNat = payload.toNat := by
  have hloaded : client = .little ∨ bswap 8 payload.toNat = payload.toNat
      ↔ loadUInt64 client (leBytes 8 payload.toNat) = payload := by
    rw [← UInt64.toNat_inj, toNat_loadUInt64]
    cases client with
    | little => exact iff_of_true (.inl rfl) rfl
    | big => exact ⟨fun h => h.resolve_left nofun, .inr⟩
  rw [hloaded]
  constructor
  · exact loaded_of_pong_matches
  · intro h s hdir hc
    obtain ⟨s₁, ping, hsend, hping, hvalue⟩ :=
      posts_ping server ids hdir hc payload
    refine ⟨s₁, ping, hsend, fun c now hdirc hcc hr => ?_⟩
    rw [hping] at hr ⊢
    obtain ⟨c₁, pong, hanswer, hpong⟩ := posts_answer client ids hdirc hcc hr
      now
    rw [h] at hpong
    refine ⟨c₁, pong, hanswer, hpong, fun s₂ later hdir₂ hvalue₂ hr₂ => ?_⟩
    rw [hpong] at hr₂
    have hpulse :=
      @addToIncomingMessageQueue_pulse server ids s₂ later hdir₂
    rw [if_pos hr₂.header, hr₂.payload server] at hpulse
    obtain ⟨-, htime, -⟩ := fields_of_pulse hpulse
    rw [htime, judged, hvalue₂, hvalue, if_pos rfl]

/-- The payload 1 and a big-endian client: the answer carries 2 ^ 56. -/
theorem pong_of_big_endian_client :
    ¬ PongMatches .little .big ⟨1, 2⟩ 1 := by
  intro h
  have hloaded := loaded_of_pong_matches h
  revert hloaded
  decide

-- ========================================================== what is stored

/-- The converted size field, as a number on the host that converted
it. -/
theorem toNat_htobe16 (host : ByteOrder) (x : UInt16) :
    (htobe16 host x).toNat
      = match host with
        | .little => x.toNat / 256 + 256 * (x.toNat % 256)
        | .big => x.toNat := by
  have hx : x.toNat < 65536 := x.toNat_lt
  rw [htobe16, UInt16.toNat_ofNat']
  cases host with
  | little =>
      have hhigh : x.toNat / 256 % 2 ^ 8 = x.toNat / 256 :=
        Nat.mod_eq_of_lt (by omega)
      have hlow : x.toNat % 256 < 256 := Nat.mod_lt _ (by decide)
      simp only [ByteOrder.htobe, bswap, leBytes, ofLe, List.reverse_cons,
        List.reverse_nil, List.nil_append, List.cons_append,
        UInt8.toNat_ofNat', hhigh, Nat.mul_zero, Nat.add_zero]
      exact Nat.mod_eq_of_lt (by omega)
  | big => exact Nat.mod_eq_of_lt hx

/-- `Send` of a KeepAlive whose `Write` made this body: it loads and
stores the first eight bytes if there are so many, and else loads
nothing. -/
def StoresExactly (host : ByteOrder) (ids : PacketIDs) (packet : IPacket)
    (body : PacketBuffer) (c : Connection) : Prop :=
  ∃ c' call, (send host ids packet).run c = .ok ⟨⟩ c'
    ∧ if 8 ≤ body.bytes.length then
        c'.mLastKeepAliveValue = loadUInt64 host (body.bytes.take 8)
        ∧ c'.hist = c.hist
          ++ [.pinged (loadUInt64 host (body.bytes.take 8)), .posted call]
      else
        c'.mLastKeepAliveValue = c.mLastKeepAliveValue
        ∧ c'.hist = c.hist ++ [.posted call]

/-- The test is right exactly where it says what the body's length
says. -/
theorem stores_iff_test (hdir : c.mDirection = .toClient)
    (hc : c.isConnected = true) (hid : packet.id = ids.keepAlive)
    (hw : packet.write.run {} = .ok ⟨⟩ body) :
    StoresExactly host ids packet body c
      ↔ (8 ≤ (htobe16 host body.size.toUInt16).toNat
        ↔ 8 ≤ body.bytes.length) := by
  have hrun := (posts_send host ids hc hw).1
  obtain ⟨info, hinfo⟩ : ∃ info, info = makeInfo host packet body :=
    ⟨_, rfl⟩
  rw [← hinfo] at hrun
  have hbody : info.body = body := by rw [hinfo]; rfl
  have hcaptures : Captures ids c info
      ↔ 8 ≤ (htobe16 host body.size.toUInt16).toNat := by
    rw [hinfo]
    exact ⟨fun h => h.2.2.2, fun h => ⟨hdir, hid, rfl, h⟩⟩
  rw [← hcaptures]
  by_cases hstored : Captures ids c info
  · have hremembered : remembered host ids c info = _ := if_pos hstored
    rw [hremembered] at hrun
    constructor
    · rintro ⟨c', call, hrun', h⟩
      refine iff_of_true hstored ?_
      by_contra hshort
      injection hrun'.symm.trans hrun with _ hc'
      rw [if_neg hshort, hc'] at h
      -- a load has been recorded
      have hlen := congrArg List.length h.2
      change ((c.hist ++ [_]) ++ [_]).length = _ at hlen
      rw [List.length_append, List.length_append, List.length_append]
        at hlen
      simp only [List.length_singleton] at hlen
      omega
    · intro h
      have hlong := h.mp hstored
      refine ⟨_, ⟨packet, info⟩, hrun, ?_⟩
      rw [if_pos hlong, ← PacketBuffer.bytesFrom_eq_take hlong, ← hbody]
      refine ⟨rfl, ?_⟩
      change (c.hist ++ [_]) ++ [_] = _
      rw [List.append_assoc]
      rfl
  · have hremembered : remembered host ids c info = c := if_neg hstored
    rw [hremembered] at hrun
    constructor
    · rintro ⟨c', call, hrun', h⟩
      refine iff_of_false hstored fun hlong => ?_
      injection hrun'.symm.trans hrun with _ hc'
      rw [if_pos hlong, hc'] at h
      have hlen := congrArg List.length h.2
      change (c.hist ++ [_]).length = _ at hlen
      rw [List.length_append, List.length_append] at hlen
      simp only [List.length_cons] at hlen
      omega
    · intro h
      refine ⟨_, ⟨packet, info⟩, hrun, ?_⟩
      rw [if_neg fun hlong => hstored (h.mpr hlong)]
      exact ⟨rfl, rfl⟩

/-- `Send` on a server's connection is exact about the payload if and
only if the body's length is one that the converted size field tells
rightly. -/
theorem stores_iff (hdir : c.mDirection = .toClient)
    (hc : c.isConnected = true) (hid : packet.id = ids.keepAlive)
    (hw : packet.write.run {} = .ok ⟨⟩ body) :
    StoresExactly host ids packet body c
      ↔ match host with
        | .little => body.bytes.length = 0 ∨ 8 ≤ body.bytes.length
            ∧ (body.bytes.length % 256 ≠ 0
              ∨ 2048 ≤ body.bytes.length % 65536)
        | .big => body.bytes.length < 8
            ∨ 8 ≤ body.bytes.length % 65536 := by
  rw [stores_iff_test hdir hc hid hw, toNat_htobe16, UInt32.toNat_toUInt16,
    ← body.bytes_length]
  cases host with
  | little =>
      dsimp only
      omega
  | big =>
      dsimp only
      omega

/-- Eight bytes are stored on both kinds of host. -/
theorem stores_ping :
    StoresExactly .little ⟨1, 2⟩ (Ping.toPacket .little 1 ⟨7⟩)
        ⟨[7, 0, 0, 0, 0, 0, 0, 0], 0⟩ (create 0 .toClient true [] 0)
      ∧ StoresExactly .big ⟨1, 2⟩ (Ping.toPacket .big 1 ⟨7⟩)
        ⟨[7, 0, 0, 0, 0, 0, 0, 0], 0⟩ (create 0 .toClient true [] 0) :=
  ⟨(stores_iff rfl rfl rfl rfl).mpr (by decide),
    (stores_iff rfl rfl rfl rfl).mpr (by decide)⟩

/-- A body of one byte on a little-endian host: its length, swapped, is
256, and eight bytes are loaded. -/
theorem stores_one_byte :
    ¬ StoresExactly .little ⟨1, 2⟩ ⟨1, PacketBuffer.write 7⟩ ⟨[7], 0⟩
      (create 0 .toClient true [] 0) := by
  rw [stores_iff_test rfl rfl rfl rfl]
  decide

end Connection

end AWEnginePacket
