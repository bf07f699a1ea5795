/-
The client of a `Session` is the client's end of a link.

`Session` says what an honest client does, without its code. Here the
code is put in its place. `Link.session` forgets the client's state but
for the bytes it has sent and the number of messages it has received,
and counts bytes under way to the server as arrived. `Echoing.step` is
the simulation, one event of the link for at most one of the session,
and `session_run` carries it through whole runs. What holds of every
guarded session then holds of the link (`session_invariant`).

The client has to be little-endian: it writes a payload back in
little-endian bytes whatever order it has loaded it in.
-/
import AWEnginePacket.Proofs.Unread
import AWEnginePacket.Proofs.Turn

namespace AWEnginePacket

open Endian (ByteOrder)
open Effect

open Connection

/-- Every event of a session whose KeepAlives are pings keeps its echoes
in order. -/
theorem Session.Linked.step {host : ByteOrder} {ids : PacketIDs}
    {s s' : Session} {a : Session.Action} (h : Linked ids s)
    (hpings : SendsPings host ids a)
    (hs : Session.step host ids a s = some s') : Linked ids s' := by
  cases a with
  | server a =>
      obtain ⟨c', hc', rfl⟩ := Option.map_eq_some_iff.mp hs
      exact (h.server hpings hc').1
  | receive => exact (h.receive hs).1
  | say id flags body =>
      obtain ⟨⟨hid, hlen⟩, rfl⟩ := Lts.of_guarded hs
      exact h.say hid hlen

namespace Link

variable {host : Side → ByteOrder} {ids : Side → PacketIDs} {l l' : Link}
  {self : Side → Nat} {initPacket : Option IPacket}
  {now : Side → TimePoint} {acts : List Action}

-- ========================================================== abstraction

/-- The bytes of all messages the client has sent. -/
def clientStream (host : Side → ByteOrder) (l : Link) : List UInt8 :=
  wire (host .client) ((l.conn .client).sent.map (·.info))

/-- The link as a session: the bytes under way to the server have
arrived, and of the client only what it sends and receives is left. -/
def session (host : Side → ByteOrder) (l : Link) : Session where
  server := (l.conn .server).ahead
    ((l.clientStream host).drop (l.arrived .server))
  stream := l.clientStream host
  read := (l.conn .client).mMessagesIn.length

/-- A packet a client's user may send: no KeepAlive, and with a body that
fits the header. -/
def Polite (ids : Side → PacketIDs) (packet : IPacket) : Prop :=
  packet.id ≠ (ids .server).keepAlive ∧ (bodyOf packet).length ≤ 65535

/-- The bodies sent by the server fit, and the client's user is polite. -/
def Fits (ids : Side → PacketIDs) : Action → Prop
  | .event .server a => ∀ packet ∈ sends? a, (bodyOf packet).length ≤ 65535
  | .event .client a => ∀ packet ∈ sends? a, Polite ids packet
  | .arrive _ _ => True

/-- The events of the server in an action of the link. -/
def serverEvent : Action → List Connection.Action
  | .event .server a => [a]
  | _ => []

/-- The events of the server in an action of a session. -/
def serverEvent' : Session.Action → List Connection.Action
  | .server a => [a]
  | _ => []

/-- What the ends hold that has not been sent yet is fit to be sent. -/
structure Echoing (host : Side → ByteOrder) (ids : Side → PacketIDs)
    (l : Link) : Prop extends Joined host ids l where
  fits : ∀ call ∈ (l.conn .server).sent ++ (l.conn .server).calls,
    (bodyOf call.packet).length ≤ 65535
  polite : ∀ call ∈ (l.conn .client).calls, Polite ids call.packet
  initPolite : (l.conn .client).connecting = true →
    ∀ packet, (l.conn .client).mInitPacket = some packet → Polite ids packet

/-- A step of the link, seen as one of its session. -/
def Matches (host : Side → ByteOrder) (ids : Side → PacketIDs) (l : Link)
    (a : Action) (l' : Link) : Prop :=
  l'.session host = l.session host ∧ serverEvent a = []
    ∨ ∃ b, Session.step (host .server) (ids .server) b (l.session host)
        = some (l'.session host) ∧ serverEvent' b = serverEvent a

theorem echoing_start (hinit : ∀ packet ∈ initPacket, Polite ids packet) :
    Echoing host ids (start self initPacket now) := by
  refine ⟨joined_start self initPacket now, ?_, ?_, fun _ packet hp => ?_⟩
  · intro call hcall
    cases hcall
  · intro call hcall
    cases hcall
  · exact hinit packet hp

theorem session_start (self : Side → Nat) (initPacket : Option IPacket)
    (now : Side → TimePoint) : (start self initPacket now).session host
      = Session.start (self .server) (now .server) := rfl

/-- No more has arrived than the client has sent. -/
theorem Joined.arrived_le_stream (h : Joined host ids l) :
    l.arrived .server ≤ (l.clientStream host).length :=
  (h.arrived_le .server).trans (h.phase .client).said.1.length_le

/-- One more message of the client's. -/
theorem clientStream_append {c' : Connection} {call : SendCall}
    (hp : Prepared (host .client) call)
    (hfit : (bodyOf call.packet).length ≤ 65535)
    (hsent : c'.sent = (l.conn .client).sent ++ [call]) :
    (l.setConn .client c').clientStream host = l.clientStream host
      ++ clientFrame call.packet.id PacketFlags.none (bodyOf call.packet) := by
  have hone : Framing.Format.sent (headerBytes (host .client)) bodyBytes
      [call.info] = headerBytes (host .client) call.info
        ++ bodyBytes call.info := by
    rw [Framing.Format.sent, List.flatMap_singleton]
  rw [clientStream, setConn_same, hsent, clientStream, List.map_append, wire,
    wire, Serial.wire, Serial.wire, Framing.Format.sent_append,
    List.map_singleton, hone, bytes_of_fits hp hfit]

/-- The client's messages received, where it has said nothing. -/
theorem session_of_sent {c' : Connection}
    (hsent : c'.sent = (l.conn .client).sent) :
    (l.setConn .client c').session host
      = { l.session host with read := c'.mMessagesIn.length } := by
  have hstream : (l.setConn .client c').clientStream host
      = l.clientStream host := by
    rw [clientStream, setConn_same, hsent, clientStream]
  have hserver : (l.setConn .client c').conn .server = l.conn .server :=
    setConn_of_ne (by decide)
  rw [session, hstream, hserver, setConn_same]
  rfl

/-- The same where it has said some bytes. -/
theorem session_hear (h : Joined host ids l) {c' : Connection}
    {bytes : List UInt8} (hstream : (l.setConn .client c').clientStream host
      = l.clientStream host ++ bytes) :
    (l.setConn .client c').session host
      = Session.hear { l.session host with read := c'.mMessagesIn.length }
          bytes := by
  have hserver : (l.setConn .client c').conn .server = l.conn .server :=
    setConn_of_ne (by decide)
  have hdrop : (l.clientStream host ++ bytes).drop (l.arrived .server)
      = (l.clientStream host).drop (l.arrived .server) ++ bytes :=
    List.drop_append_of_le_length h.arrived_le_stream
  rw [session, hstream, hserver, setConn_same]
  show Session.mk ((l.conn .server).ahead ((l.clientStream host ++ bytes).drop
    (l.arrived .server))) _ _ = _
  rw [hdrop, ahead, ← List.append_assoc]
  rfl

-- =============================================================== steps

/-- An event of the server. -/
theorem matches_server {b : Connection.Action} {c' : Connection}
    (hs : Connection.step (host .server) (ids .server) b (l.conn .server)
      = some c') :
    Matches host ids l (.event .server b) (l.setConn .server c') := by
  have hclient : (l.setConn .server c').conn .client = l.conn .client :=
    setConn_of_ne (by decide)
  refine .inr ⟨.server b, ?_, rfl⟩
  have hahead := step_ahead hs ((l.clientStream host).drop (l.arrived .server))
  refine Option.map_eq_some_iff.mpr ⟨_, hahead, ?_⟩
  unfold session clientStream
  rw [setConn_same, hclient]
  rfl

/-- Bytes that arrive have arrived before, in the session. -/
theorem matches_arrive (h : Joined host ids l) {side : Side} {n : Nat}
    (hn : n ≤ (l.inTransit side).length) :
    Matches host ids l (.arrive side n) (l.arrive side n) := by
  refine .inl ⟨?_, rfl⟩
  cases side with
  | client =>
      have hserver : (l.arrive .client n).conn .server = l.conn .server :=
        arrive_conn_of_ne (by decide)
      have harrived : (l.arrive .client n).arrived .server
          = l.arrived .server := arrive_arrived_of_ne (by decide)
      unfold session clientStream
      rw [hserver, arrive_conn_same, harrived]
      rfl
  | server =>
      have hclient : (l.arrive .server n).conn .client = l.conn .client :=
        arrive_conn_of_ne (by decide)
      have hn : n ≤ ((l.conn .client).handed.drop (l.arrived .server)).length :=
        hn
      have hle : l.arrived .server ≤ (l.conn .client).handed.length :=
        h.arrived_le .server
      obtain ⟨more, hmore⟩ := (h.phase .client).said.1
      have htake : (l.inTransit .server).take n
          = ((l.clientStream host).drop (l.arrived .server)).take n := by
        rw [clientStream, ← hmore,
          List.drop_append_of_le_length hle,
          List.take_append_of_le_length hn]
        rfl
      have hsplit : (l.inTransit .server).take n
          ++ (l.clientStream host).drop (l.arrived .server + n)
          = (l.clientStream host).drop (l.arrived .server) := by
        rw [htake, ← List.drop_drop, List.take_append_drop]
      have hstream : (l.arrive .server n).clientStream host
          = l.clientStream host := by
        rw [clientStream, hclient, clientStream]
      rw [session, session, hstream, hclient, arrive_conn_same,
        arrive_arrived_same, ahead]
      dsimp only
      rw [List.append_assoc, hsplit]
      rfl

/-- The client says something of its own. -/
theorem matches_speaks (h : Echoing host ids l) {b : Connection.Action}
    {c' : Connection} {call : SendCall}
    (hjoined : Joined host ids (l.setConn .client c'))
    (hsent : c'.sent = (l.conn .client).sent ++ [call])
    (hmsgs : c'.mMessagesIn = (l.conn .client).mMessagesIn)
    (hpolite : Polite ids call.packet) :
    Matches host ids l (.event .client b) (l.setConn .client c') := by
  obtain ⟨hid, hfit⟩ := hpolite
  have hprep : Prepared (host .client) call := by
    refine (hjoined.phase .client).said.2 call ?_
    rw [setConn_same, hsent]
    exact List.mem_append_right _ (List.mem_singleton_self call)
  have hstream := clientStream_append hprep hfit hsent
  refine .inr ⟨.say call.packet.id PacketFlags.none (bodyOf call.packet), ?_,
    rfl⟩
  rw [session_hear h.toJoined hstream, hmsgs]
  exact if_pos ⟨hid, hfit⟩

/-- The client takes the server's next message, and answers it if it is a
KeepAlive. -/
theorem matches_receives (h : Echoing host ids l) {b : Connection.Action}
    {c' : Connection} {m : OwnedMessage} {answer : List SendCall}
    (hlittle : host .client = .little)
    (hids : (ids .client).keepAlive = (ids .server).keepAlive)
    (hjoined : Joined host ids (l.setConn .client c'))
    (hsent : c'.sent = (l.conn .client).sent ++ answer)
    (hmsgs : c'.mMessagesIn = (l.conn .client).mMessagesIn ++ [m])
    (hanswer : Answers (host .client) (ids .client) m.second answer) :
    Matches host ids l (.event .client b) (l.setConn .client c') := by
  have hserver : (l.setConn .client c').conn .server = l.conn .server :=
    setConn_of_ne (by decide)
  -- the message is the next one the server has sent
  have hm : ((l.setConn .client c').conn .client).mMessagesIn[
      (l.conn .client).mMessagesIn.length]? = some m := by
    rw [setConn_same, hmsgs, List.getElem?_concat_length]
  have hfit : ∀ call ∈ ((l.setConn .client c').conn .server).sent,
      (bodyOf call.packet).length ≤ 65535 := by
    rw [hserver]
    exact fun call hcall => h.fits call (List.mem_append_left _ hcall)
  obtain ⟨call, hcall, hheader, hbody⟩ :=
    @Joined.message host ids (l.setConn .client c') .client hjoined hfit _ _ hm
  have hcall : (l.conn .server).sent[(l.conn .client).mMessagesIn.length]?
      = some call := by
    rw [← hserver]
    exact hcall
  have hprep : Prepared (host .server) call :=
    (h.phase .server).said.2 call (List.mem_of_getElem? hcall)
  have hid : m.second.header.id = call.info.header.id := by
    rw [hheader, hprep.2]
    rfl
  have hread : c'.mMessagesIn.length
      = (l.conn .client).mMessagesIn.length + 1 := by
    rw [hmsgs, List.length_append, List.length_singleton]
  refine .inr ⟨.receive, ?_, rfl⟩
  show Session.receive (ids .server) (l.session host) = _
  unfold Session.receive
  have hnext : (l.session host).server.sent[(l.session host).read]?
      = some call := hcall
  rw [hnext]
  dsimp only
  cases hanswer with
  | none hne =>
      rw [hid, hids] at hne
      rw [if_neg hne, session_of_sent (hsent.trans (List.append_nil _)), hread]
      rfl
  | echo pong hpong hsize hprep' hpacket =>
      rw [hid, hids] at hpong
      have hlen : (bodyOf call.packet).length = 8 := by
        have hle := h.fits call
          (List.mem_append_left _ (List.mem_of_getElem? hcall))
        rw [hheader] at hsize
        have hnat := congrArg UInt16.toNat hsize
        rw [UInt16.toNat_ofNat', Nat.mod_eq_of_lt (by omega)] at hnat
        exact hnat
      have hbytes : m.second.body.bytes = bodyOf call.packet := by
        refine hbody.mpr (.inl fun hnil => ?_)
        rw [hnil] at hlen
        cases hlen
      have hecho : bodyOf pong.packet = bodyBytes call.info := by
        rw [hpacket, hlittle, echo_bodyOf (by rw [hbytes, hlen]), hbytes,
          hprep.bodyOf]
      have hpongId : pong.packet.id = (ids .server).keepAlive := by
        rw [hpacket, ← hids]
        rfl
      have hstream := clientStream_append hprep'
        (by rw [hecho, ← hprep.bodyOf]; omega) hsent
      rw [hpongId, hecho] at hstream
      rw [if_pos hpong, session_hear h.toJoined hstream, hread]
      rfl

/-- An event of the client. -/
theorem matches_client (h : Echoing host ids l) {b : Connection.Action}
    {c' : Connection} (hlittle : host .client = .little)
    (hids : (ids .client).keepAlive = (ids .server).keepAlive)
    (hnews : ∀ packet, News (l.conn .client) b packet → Polite ids packet)
    (hjoined : Joined host ids (l.setConn .client c'))
    (hturn : Turn (host .client) (ids .client) (l.conn .client) b c') :
    Matches host ids l (.event .client b) (l.setConn .client c') := by
  cases hturn with
  | silent hsent hmsgs hcalls =>
      refine .inl ⟨?_, rfl⟩
      rw [session_of_sent hsent, hmsgs]
      rfl
  | speaks call hsent hmsgs hcalls hcall =>
      refine matches_speaks h hjoined hsent hmsgs ?_
      rcases hcall with hcall | hnew
      · exact h.polite call hcall
      · exact hnews call.packet hnew
  | receives m answer hsent hmsgs hcalls hanswer =>
      exact matches_receives h hlittle hids hjoined hsent hmsgs hanswer

/-- What an event of the client leaves to be sent is polite. -/
theorem polite_of_turn (h : Echoing host ids l) {b : Connection.Action}
    {c' : Connection}
    (hnews : ∀ packet, News (l.conn .client) b packet → Polite ids packet)
    (hturn : Turn (host .client) (ids .client) (l.conn .client) b c') :
    ∀ call ∈ c'.calls, Polite ids call.packet := by
  cases hturn with
  | silent hsent hmsgs hcalls =>
      intro call hcall
      rcases hcalls call hcall with hcall | hnew
      · exact h.polite call hcall
      · exact hnews call.packet hnew
  | speaks call hsent hmsgs hcalls hcall =>
      exact fun call hcall => h.polite call (hcalls hcall)
  | receives m answer hsent hmsgs hcalls hanswer =>
      rw [hcalls]
      exact h.polite

/-- Every step keeps the two ends fit, and is matched by the session. -/
theorem Echoing.step (h : Echoing host ids l) {a : Action}
    (hlittle : host .client = .little)
    (hids : (ids .client).keepAlive = (ids .server).keepAlive)
    (hfits : Fits ids a) (hs : Link.step host ids a l = some l') :
    Echoing host ids l' ∧ Matches host ids l a l' := by
  have hjoined := h.toJoined.step hs
  rcases step_cases hs with
    ⟨side, b, c', rfl, hb, hc', rfl⟩ | ⟨side, n, rfl, hn, rfl⟩
  · cases side with
    | server =>
        have hclient : (l.setConn .server c').conn .client = l.conn .client :=
          setConn_of_ne (by decide)
        obtain ⟨fs, rest, hr⟩ := (h.phase .server).reader
        have hbeat := step_beat hr.direction hr hc'
        refine ⟨⟨hjoined, ?_, ?_, ?_⟩, matches_server hc'⟩
        · rw [setConn_same]
          intro call hcall
          rcases hbeat.mem_posted hcall with hcall | hnew
          · exact h.fits call hcall
          · exact hfits call.packet hnew
        · rw [hclient]
          exact h.polite
        · rw [hclient]
          exact h.initPolite
    | client =>
        have hserver : (l.setConn .client c').conn .server = l.conn .server :=
          setConn_of_ne (by decide)
        obtain ⟨hturn, hdial⟩ := (h.phase .client).turn hb hc'
        have hnews : ∀ packet, News (l.conn .client) b packet →
            Polite ids packet := by
          rintro packet (hnew | ⟨hconn, hinit⟩)
          · exact hfits packet hnew
          · exact h.initPolite hconn packet hinit
        refine ⟨⟨hjoined, ?_, ?_, ?_⟩,
          matches_client h hlittle hids hnews hjoined hturn⟩
        · rw [hserver]
          exact h.fits
        · rw [setConn_same]
          exact polite_of_turn h hnews hturn
        · rw [setConn_same]
          intro hconn
          obtain rfl := hdial hconn
          exact h.initPolite hconn
  · obtain ⟨bytes, hclient⟩ := conn_arrive l side n .client
    obtain ⟨bytes', hserver⟩ := conn_arrive l side n .server
    refine ⟨⟨hjoined, ?_, ?_, ?_⟩, matches_arrive h.toJoined hn⟩
    · rw [hserver]
      exact h.fits
    · rw [hclient]
      exact h.polite
    · rw [hclient]
      exact h.initPolite

-- ================================================================ runs

/-- Every run of a link whose client is little-endian is, for its server,
a run of a session with an honest client: the same events of the server,
in the same order, and in the end the same connection but for the bytes
under way to it. -/
theorem session_run (hlittle : host .client = .little)
    (hids : (ids .client).keepAlive = (ids .server).keepAlive)
    (hinit : ∀ packet ∈ initPacket, Polite ids packet)
    (hfits : ∀ a ∈ acts, Fits ids a)
    (hrun : Lts.run (step host ids) (start self initPacket now) acts
      = some l) :
    ∃ bs, Lts.run (Session.step (host .server) (ids .server))
        (Session.start (self .server) (now .server)) bs
          = some (l.session host)
      ∧ bs.flatMap serverEvent' = acts.flatMap serverEvent := by
  have hsim : ∀ l a l' s, (Echoing host ids l ∧ l.session host = s) →
      (True ∧ Fits ids a) → Link.step host ids a l = some l' →
      ∃ bs s', Lts.run (Session.step (host .server) (ids .server)) s bs
          = some s' ∧ (Echoing host ids l' ∧ l'.session host = s')
        ∧ bs.flatMap serverEvent' = serverEvent a := by
    rintro l a l' s ⟨h, rfl⟩ ⟨-, hfit⟩ hs
    obtain ⟨h', ⟨hsame, hnone⟩ | ⟨b, hb, hevent⟩⟩ :=
      h.step hlittle hids hfit hs
    · exact ⟨[], _, rfl, ⟨h', hsame⟩, hnone.symm⟩
    · refine ⟨[b], _, Lts.run_singleton.mpr hb, ⟨h', rfl⟩, ?_⟩
      rw [List.flatMap_singleton, hevent]
  have hmeets : Lts.Meets (step host ids) (fun _ a => True ∧ Fits ids a)
      (start self initPacket now) acts :=
    Lts.Meets.and_forall (Lts.Meets.of_forall (fun _ _ => trivial) _ _) hfits
  obtain ⟨bs, s, hbs, ⟨-, rfl⟩, hevents⟩ := Lts.run_simulated _ _ _ hsim
    ⟨echoing_start hinit, session_start self initPacket now⟩ hmeets hrun
  exact ⟨bs, hbs, hevents⟩

/-- What the guarded steps of a session keep holds of the session of
every guarded run of the link. -/
theorem session_invariant {P : Session → Prop} {g : Link → Action → Prop}
    {g' : Session → Session.Action → Prop} (hlittle : host .client = .little)
    (hids : (ids .client).keepAlive = (ids .server).keepAlive)
    (hguard : ∀ l a b, g l a → serverEvent' b = serverEvent a →
      g' (l.session host) b)
    (hstep : ∀ s b s', P s → g' s b →
      Session.step (host .server) (ids .server) b s = some s' → P s')
    (hstart : P (Session.start (self .server) (now .server)))
    (hinit : ∀ packet ∈ initPacket, Polite ids packet)
    (hfits : ∀ a ∈ acts, Fits ids a)
    (hm : Lts.Meets (step host ids) g (start self initPacket now) acts)
    (hrun : Lts.run (step host ids) (start self initPacket now) acts
      = some l) : Echoing host ids l ∧ P (l.session host) := by
  refine Lts.run_invariant_of_meets
    (fun l => Echoing host ids l ∧ P (l.session host)) ?_
    ⟨echoing_start hinit, hstart⟩ (hm.and_forall hfits) hrun
  rintro l a l' ⟨h, hp⟩ ⟨hg, hfit⟩ hs
  obtain ⟨h', ⟨hsame, -⟩ | ⟨b, hb, hevent⟩⟩ := h.step hlittle hids hfit hs
  · rw [hsame]
    exact ⟨h', hp⟩
  · exact ⟨h', hstep _ b _ hp (hguard l a b hg hevent) hb⟩

/-- The KeepAlives the server sends are pings. -/
def Pings (host : Side → ByteOrder) (ids : Side → PacketIDs) (a : Action) :
    Prop :=
  ∀ b ∈ serverEvent a,
    Session.SendsPings (host .server) (ids .server) (.server b)

/-- The server sends no ping while one with another payload is
unanswered. -/
def OnePayload (ids : Side → PacketIDs) (l : Link) (a : Action) : Prop :=
  ∀ b ∈ serverEvent a, ∀ packet ∈ sends? b,
    packet.id = (ids .server).keepAlive →
      ∀ body ∈ Session.unanswered (ids .server) (l.conn .server),
        body = bodyOf packet

instance (ids : Side → PacketIDs) (l : Link) (a : Action) :
    Decidable (OnePayload ids l a) := by
  unfold OnePayload
  infer_instance

theorem Pings.session {a : Action} {b : Session.Action}
    (h : Pings host ids a) (hevent : serverEvent' b = serverEvent a) :
    Session.SendsPings (host .server) (ids .server) b := by
  cases b with
  | server b => exact h b (hevent ▸ List.mem_singleton_self b)
  | receive => trivial
  | say id flags body => trivial

theorem OnePayload.session {a : Action} {b : Session.Action}
    (h : OnePayload ids l a) (hevent : serverEvent' b = serverEvent a) :
    Session.OnePayload (ids .server) (l.session host) b := by
  cases b with
  | server b => exact h b (hevent ▸ List.mem_singleton_self b)
  | receive => trivial
  | say id flags body => trivial

/-- A server whose pings carry one payload as long as any is unanswered
never gives up a client that runs this code on a little-endian host, and
whose user leaves KeepAlives alone, however the two ends and the network
between them are scheduled: the time it was last heard of is that of the
accept or of an echo. -/
theorem echo_never_dropped (hlittle : host .client = .little)
    (hids : (ids .client).keepAlive = (ids .server).keepAlive)
    (hinit : ∀ packet ∈ initPacket, Polite ids packet)
    (hfits : ∀ a ∈ acts, Fits ids a) (hpings : ∀ a ∈ acts, Pings host ids a)
    (hone : Lts.Meets (step host ids) (OnePayload ids)
      (start self initPacket now) acts)
    (hrun : Lts.run (step host ids) (start self initPacket now) acts
      = some l) :
    (∀ payload, Obs.dropped payload ∉ (l.conn .server).hist)
      ∧ ((l.conn .server).mLastKeepAlive = now .server
        ∨ ∃ payload, Obs.refreshed payload (l.conn .server).mLastKeepAlive
          ∈ (l.conn .server).hist) := by
  have h : Session.Agreed (host .server) (ids .server) (now .server)
      (l.session host) :=
    (@session_invariant host ids l self initPacket now acts _ _
      (fun s b => Session.SendsPings (host .server) (ids .server) b
        ∧ Session.OnePayload (ids .server) s b) hlittle hids
      (fun l a b hg hevent => ⟨hg.2.session hevent, hg.1.session hevent⟩)
      (fun s b s' h hg hs => h.step hg.1 hg.2 hs)
      (Session.agreed_start (self .server) (now .server)) hinit hfits
      (hone.and_forall hpings) hrun).2
  exact h.trusted

-- ======================================================= echoes in order

/-- The bodies of the KeepAlives a connection has received. -/
def pongs (ids : PacketIDs) (c : Connection) : List (List UInt8) :=
  (c.mMessagesIn.filter (·.second.header.id == ids.keepAlive)).map
    (·.second.body.bytes)

/-- They are those of the frames taken. -/
theorem pongs_eq {ids : PacketIDs} {c : Connection} {d : PacketDirection}
    {stream rest : List UInt8} {fs : List WireFrame}
    (hr : Reader ids d stream c fs rest) :
    pongs ids c = Session.pongBodies ids fs := by
  have hlength : ∀ f ∈ fs, f.2.length = f.1.size.toNat := by
    intro f hf
    refine frames.length_of_mem_split (l := stream) ?_
    rw [hr.cursor.frames]
    exact List.mem_append_left _ hf
  have hdelivered := hr.delivered
  rw [pongs, hr.messages]
  clear hr
  induction fs using List.reverseRecOn with
  | nil => rfl
  | append_singleton fs f ih =>
      have hlen := hlength f (List.mem_append_right _ List.mem_cons_self)
      have hv := hdelivered f (List.mem_append_right _ List.mem_cons_self)
      rw [Inbox.of_append_singleton, Inbox.take, Session.pongBodies_append,
        Session.pongBodies_singleton]
      dsimp only
      rw [List.filter_append, List.map_append,
        ih (fun g hg => hlength g (List.mem_append_left _ hg))
          fun g hg => hdelivered g (List.mem_append_left _ hg)]
      congr 1
      by_cases hid : f.1.id = ids.keepAlive
      · have hsize : f.1.size = 8 := by
          by_contra hne
          rw [verdict] at hv
          split at hv
          · cases hv
          · rw [if_pos ⟨hid, .inr hne⟩] at hv
            cases hv
        have h8 : f.2.length = 8 := by
          rw [hlen, hsize]
          rfl
        have hne : f.2 ≠ [] := by
          intro hnil
          rw [hnil] at h8
          cases h8
        rw [if_pos hid, List.filter_cons_of_pos (by simpa using hid),
          if_neg hne]
        show [PacketBuffer.bytes ⟨f.2, 0⟩] = [f.2]
        rw [bytes_of_length_le (by omega)]
      · rw [if_neg hid, List.filter_cons_of_neg (by simpa using hid)]
        rfl

/-- In every run whose KeepAlives are pings the echoes in the client's
stream are the pings it has received. -/
theorem linked_run (hlittle : host .client = .little)
    (hids : (ids .client).keepAlive = (ids .server).keepAlive)
    (hinit : ∀ packet ∈ initPacket, Polite ids packet)
    (hfits : ∀ a ∈ acts, Fits ids a) (hpings : ∀ a ∈ acts, Pings host ids a)
    (hrun : Lts.run (step host ids) (start self initPacket now) acts
      = some l) :
    Echoing host ids l ∧ Session.Linked (ids .server) (l.session host) :=
  session_invariant hlittle hids (fun _ _ _ hg hevent => hg.2.session hevent)
    (fun _ _ _ h hg hs => h.step hg hs) (Session.linked_start _ _) hinit hfits
    (Lts.Meets.and_forall
      (Lts.Meets.of_forall (fun _ _ => trivial) _ _) hpings) hrun

/-- The KeepAlives a server has received are, body for body, the first of
those it has sent, if its client's user sends none. -/
theorem pongs_answer_pings (hlittle : host .client = .little)
    (hids : (ids .client).keepAlive = (ids .server).keepAlive)
    (hinit : ∀ packet ∈ initPacket, Polite ids packet)
    (hfits : ∀ a ∈ acts, Fits ids a) (hpings : ∀ a ∈ acts, Pings host ids a)
    (hrun : Lts.run (step host ids) (start self initPacket now) acts
      = some l) :
    pongs (ids .server) (l.conn .server)
      <+: Session.pingBodies (ids .server) (l.conn .server).sent := by
  obtain ⟨h, hlinked⟩ := linked_run hlittle hids hinit hfits hpings hrun
  obtain ⟨fs, rest, hr⟩ := hlinked.reader
  have hpongs : pongs (ids .server) (l.session host).server
      = Session.pongBodies (ids .server) fs := pongs_eq hr
  have hechoes : Session.pongBodies (ids .server) (frames.split
      (l.session host).stream).1 = Session.pingBodies (ids .server)
        ((l.conn .server).sent.take (l.session host).read) := hlinked.echoes
  rw [hr.cursor.frames, Session.pongBodies_append] at hechoes
  have hsent := congrArg (Session.pingBodies (ids .server))
    (List.take_append_drop (l.session host).read (l.conn .server).sent)
  rw [Session.pingBodies_append, ← hechoes, List.append_assoc] at hsent
  have hprefix : Session.pongBodies (ids .server) fs
      <+: Session.pingBodies (ids .server) (l.conn .server).sent := ⟨_, hsent⟩
  rw [← hpongs] at hprefix
  exact hprefix

/-- Once nothing is under way in either direction, the server has
received an answer to every ping it has sent, and no other KeepAlive. -/
theorem quiet_answers_all (hlittle : host .client = .little)
    (hids : (ids .client).keepAlive = (ids .server).keepAlive)
    (hinit : ∀ packet ∈ initPacket, Polite ids packet)
    (hfits : ∀ a ∈ acts, Fits ids a) (hpings : ∀ a ∈ acts, Pings host ids a)
    (hrun : Lts.run (step host ids) (start self initPacket now) acts
      = some l) (hquiet : ∀ side, Quiet l side) :
    pongs (ids .server) (l.conn .server)
      = Session.pingBodies (ids .server) (l.conn .server).sent := by
  obtain ⟨h, hlinked⟩ := linked_run hlittle hids hinit hfits hpings hrun
  have hall := h.toJoined.received_all (hquiet .client)
    fun call hcall => h.fits call (List.mem_append_left _ hcall)
  have hread : (l.session host).read = (l.conn .server).sent.length := by
    have hlength := congrArg List.length hall
    rwa [List.length_map, List.length_map] at hlength
  obtain ⟨fs, rest, hr⟩ := (h.phase .server).reader
  obtain rfl := hr.rest_eq (hquiet .server).reads
  have hframes := hr.cursor.frames
  rw [(hquiet .server).incoming, Framing.Format.split_nil, List.append_nil,
    h.toJoined.heard_all (hquiet .server)] at hframes
  have hechoes := hlinked.echoes
  rw [hread] at hechoes
  rw [pongs_eq hr, ← hframes]
  refine hechoes.trans ?_
  exact congrArg _ List.take_length

-- ============================================================= a run

/-- A client connects, its server pings it, and it answers. -/
def echoed : List Action :=
  pinged ++ [.event .client .posted, .event .client (.writeDone .header true 5),
    .event .client (.writeDone .body true 6), .arrive .server 12,
    .event .server (.readDone .header true 7),
    .event .server (.readDone (.body 8) true 8)]

/-- Where that run leaves the two ends. -/
theorem echoed_run :
    ∃ l, Lts.run (step (fun _ => .little) fun _ => ⟨1, 2⟩)
        (start (fun _ => 0) none fun _ => 0) echoed = some l
      ∧ (l.conn .server).hist.countP (Obs.refreshes 7) = 1
      ∧ pongs ⟨1, 2⟩ (l.conn .server) = [[7, 0, 0, 0, 0, 0, 0, 0]]
      ∧ ∀ side, Quiet l side := by
  have hend : (Lts.run (step (fun _ => .little) fun _ => ⟨1, 2⟩)
      (start (fun _ => 0) none fun _ => 0) echoed).map (fun l => decide
        ((l.conn .server).hist.countP (Obs.refreshes 7) = 1
          ∧ pongs ⟨1, 2⟩ (l.conn .server) = [[7, 0, 0, 0, 0, 0, 0, 0]]
          ∧ ∀ side ∈ [Side.server, .client],
            ((l.conn side.peer).mMessagesOut = []
              ∧ (l.conn side.peer).queued = [])
            ∧ l.arrived side = (l.conn side.peer).handed.length
            ∧ (l.conn side).incoming = []
            ∧ (l.conn side).reads = [.header])) = some true := by
    decide +kernel
  obtain ⟨l, hrun, hl⟩ := Option.map_eq_some_iff.mp hend
  obtain ⟨hcount, hpongs, hquiet⟩ := of_decide_eq_true hl
  refine ⟨l, hrun, hcount, hpongs, fun side => ?_⟩
  have hmem : side ∈ [Side.server, .client] := by
    cases side <;> simp
  obtain ⟨hdrained, harrived, hin, hreads⟩ := hquiet side hmem
  exact ⟨hdrained, harrived, hin, hreads⟩

/-- Its client begins with nothing. -/
theorem polite_none :
    ∀ packet ∈ (none : Option IPacket), Polite (fun _ => ⟨1, 2⟩) packet := by
  intro packet hp
  cases hp

/-- Its messages fit. -/
theorem echoed_fits : ∀ a ∈ echoed, Fits (fun _ => ⟨1, 2⟩) a := by
  have hnone (side : Side) (b : Connection.Action) (hb : sends? b = none) :
      Fits (fun _ => ⟨1, 2⟩) (.event side b) := by
    cases side <;> (intro packet hp; rw [hb] at hp; cases hp)
  have hping : Fits (fun _ => ⟨1, 2⟩)
      (.event .server (.send (Ping.toPacket .little 1 ⟨7⟩))) := by
    intro packet hp
    rw [← Option.mem_some_iff.mp hp, Session.ping_bodyOf,
      Endian.leBytes_length]
    decide
  simp only [echoed, pinged, List.cons_append, List.nil_append,
    List.forall_mem_cons]
  exact ⟨hnone _ _ rfl, hping, hnone _ _ rfl, hnone _ _ rfl, hnone _ _ rfl,
    trivial, hnone _ _ rfl, hnone _ _ rfl, hnone _ _ rfl, hnone _ _ rfl,
    hnone _ _ rfl, trivial, hnone _ _ rfl, hnone _ _ rfl,
    List.forall_mem_nil _⟩

/-- Its KeepAlives are pings. -/
theorem echoed_pings : ∀ a ∈ echoed,
    Pings (fun _ => .little) (fun _ => ⟨1, 2⟩) a := by
  have hnone (b : Connection.Action) (hb : sends? b = none) :
      Pings (fun _ => .little) (fun _ => ⟨1, 2⟩) (.event .server b) := by
    intro b' hb'
    rw [List.mem_singleton.mp hb']
    exact Session.sendsPings_of_none hb
  have hclient (b : Connection.Action) :
      Pings (fun _ => .little) (fun _ => ⟨1, 2⟩) (.event .client b) := by
    intro b' hb'
    cases hb'
  have harrive (side : Side) (n : Nat) :
      Pings (fun _ => .little) (fun _ => ⟨1, 2⟩) (.arrive side n) := by
    intro b' hb'
    cases hb'
  have hping : Pings (fun _ => .little) (fun _ => ⟨1, 2⟩)
      (.event .server (.send (Ping.toPacket .little 1 ⟨7⟩))) := by
    intro b' hb'
    rw [List.mem_singleton.mp hb']
    exact Session.sendsPings_ping ⟨7⟩
  simp only [echoed, pinged, List.cons_append, List.nil_append,
    List.forall_mem_cons]
  exact ⟨hclient _, hping, hnone _ rfl, hnone _ rfl, hnone _ rfl, harrive _ _,
    hclient _, hclient _, hclient _, hclient _, hclient _, harrive _ _,
    hnone _ rfl, hnone _ rfl, List.forall_mem_nil _⟩

theorem echoed_onePayload :
    Lts.Meets (step (fun _ => .little) fun _ => ⟨1, 2⟩)
      (OnePayload fun _ => ⟨1, 2⟩) (start (fun _ => 0) none fun _ => 0)
      echoed := by
  decide +kernel

/-- That run is one of a session with the same six events of the
server. -/
theorem session_run_echo :
    ∃ l bs, Lts.run (Session.step .little ⟨1, 2⟩) (Session.start 0 0) bs
        = some (session (fun _ => .little) l)
      ∧ (l.conn .server).hist.countP (Obs.refreshes 7) = 1
      ∧ (bs.flatMap serverEvent').length = 6 := by
  obtain ⟨l, hrun, hcount, -⟩ := echoed_run
  obtain ⟨bs, hbs, hevents⟩ := session_run rfl rfl polite_none echoed_fits hrun
  exact ⟨l, bs, hbs, hcount, by rw [hevents]; rfl⟩

/-- In it the server has accepted the answer, and given up nobody. -/
theorem echo_never_dropped_echo :
    ∃ l, Lts.run (step (fun _ => .little) fun _ => ⟨1, 2⟩)
        (start (fun _ => 0) none fun _ => 0) echoed = some l
      ∧ (l.conn .server).hist.countP (Obs.refreshes 7) = 1
      ∧ (∀ payload, Obs.dropped payload ∉ (l.conn .server).hist)
      ∧ ((l.conn .server).mLastKeepAlive = 0
        ∨ ∃ payload, Obs.refreshed payload (l.conn .server).mLastKeepAlive
          ∈ (l.conn .server).hist) := by
  obtain ⟨l, hrun, hcount, -⟩ := echoed_run
  exact ⟨l, hrun, hcount, echo_never_dropped rfl rfl polite_none echoed_fits
    echoed_pings echoed_onePayload hrun⟩

/-- The answer is the ping. -/
theorem pongs_answer_pings_echo :
    ∃ l : Link, pongs ⟨1, 2⟩ (l.conn .server) = [[7, 0, 0, 0, 0, 0, 0, 0]]
      ∧ pongs ⟨1, 2⟩ (l.conn .server)
        <+: Session.pingBodies ⟨1, 2⟩ (l.conn .server).sent := by
  obtain ⟨l, hrun, -, hpongs, -⟩ := echoed_run
  exact ⟨l, hpongs, pongs_answer_pings rfl rfl polite_none echoed_fits
    echoed_pings hrun⟩

/-- It is the only one. -/
theorem quiet_answers_all_echo :
    ∃ l, Lts.run (step (fun _ => .little) fun _ => ⟨1, 2⟩)
        (start (fun _ => 0) none fun _ => 0) echoed = some l
      ∧ Session.pingBodies ⟨1, 2⟩ (l.conn .server).sent
        = [[7, 0, 0, 0, 0, 0, 0, 0]] := by
  obtain ⟨l, hrun, -, hpongs, hquiet⟩ := echoed_run
  refine ⟨l, hrun, ?_⟩
  rw [← hpongs]
  exact (quiet_answers_all rfl rfl polite_none echoed_fits echoed_pings hrun
    hquiet).symm

end Link

end AWEnginePacket
