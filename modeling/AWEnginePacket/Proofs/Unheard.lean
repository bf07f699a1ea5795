/-
A client that has joined is never heard of again.

`PacketClient::Connect()` makes an `Init` the first thing its connection
sends, so it is the first frame of the server's stream, and a server's
connection stops reading at an `Init`. `Greeted` carries "what the
client sent first is the packet it was given" through every run of a
link; `taken_eq_nil` is what follows for the server's reader.

So a server never receives a message of such a client, and never a
KeepAlive: the time it was last heard of stays the time it was accepted
(`joined_is_unheard`), and 45 seconds later the next `SendKeepAlive()`
drops it, however well both ends and the network behave
(`joined_is_dropped`).
-/
import AWEnginePacket.Proofs.Link
import AWEnginePacket.Proofs.Sweep

namespace AWEnginePacket

open Endian (ByteOrder)
open Effect

namespace Connection

variable {host : ByteOrder} {ids : PacketIDs} {c c' : Connection}
  {a : Action} {d : PacketDirection} {heard : List UInt8}

-- ======================================================= messages sent

/-- Messages sent stay sent: an event but a connect's completion only
adds to them. -/
theorem step_sent (ha : isConnect a = false)
    (h : step host ids a c = some c') : c.sent <+: c'.sent := by
  have hsame {c₁ : Connection} (heq : c₁.sent = c.sent) :
      c.sent <+: c₁.sent := ⟨[], by rw [List.append_nil, heq]⟩
  cases a with
  | send packet =>
      obtain ⟨call, -, -, -, rfl⟩ := of_step_send h
      have hsent := (remembered_posts host ids c call.info).sent
      rw [post_sent, hsent, List.append_nil]
      exact List.prefix_append _ _
  | sendBegin packet =>
      obtain ⟨call, -, -, -, rfl⟩ := of_step_sendBegin h
      have hsent := (remembered_posts host ids c call.info).sent
      rw [List.append_nil] at hsent
      exact hsame hsent
  | sendEnd i =>
      obtain ⟨call, -, rfl⟩ := of_step_sendEnd h
      rw [post_sent]
      exact List.prefix_append _ _
  | disconnect =>
      rcases of_step_disconnect h with rfl | rfl
      · exact hsame rfl
      · exact hsame rfl
  | posted =>
      obtain ⟨handler, rest, -, rfl⟩ := of_step_posted h
      have hapart := (@runHandler_apart .posted _
        (@runPosted_keeps host handler) { c with posted := rest }).1
      have hsent := of_apart sent (fun _ => rfl) hapart
      exact hsame hsent
  | writeDone op ok now =>
      obtain ⟨-, rfl⟩ := of_step_writeDone h
      have hapart := (@runHandler_apart .write _
        (@writeCompleted_keeps host op ok now)
        { c with writes := c.writes.erase op }).1
      exact hsame (of_apart sent (fun _ => rfl) hapart)
  | readDone op ok now =>
      rcases (readDone_cases h).2 with ⟨-, -, -, hp⟩ | ⟨-, new, hp⟩
      · exact hsame (hp.sent.trans (List.append_nil _))
      · exact ⟨new, hp.sent.symm⟩
  | connectDone ok leftOpen => cases ha

/-- The first thing a client's end sends is `packet`: it has not connected
yet, or `packet` has been sent, or it could not be. -/
inductive Greeted (packet : IPacket) (c : Connection) : Prop
  | before (hinit : c.mInitPacket = some packet) (hconn : c.connecting = true)
      (hsent : c.sent = [])
  | sent (call : SendCall) (rest : List SendCall)
      (hsent : c.sent = call :: rest) (hcall : call.packet = packet)
  | never (hesc : c.escaped.isSome = true) (hsent : c.sent = [])

/-- The connect completes: `packet` is sent, or its `Write` throws. -/
theorem greeted_connected {self : Nat} {packet : IPacket} {now : TimePoint}
    {leftOpen : Bool} (h : step host ids (.connectDone true leftOpen)
      (after (connectToServer (some packet))
        (create self .toServer false heard now)) = some c') :
    Greeted packet c' := by
  by_cases hesc : c'.escaped = none
  · obtain ⟨c₁, rfl, ⟨hnone, -⟩ | ⟨packet', hpacket', hsend⟩⟩ :=
      of_connectToServer h hesc
    · cases hnone
    · injection hpacket' with hpacket'
      obtain ⟨call, hcall, hposts, -⟩ := of_send_ok_posts hsend
      exact .sent call [] hposts.sent (hcall.trans hpacket'.symm)
  · obtain ⟨e, rfl⟩ := connect_thrown h hesc
    exact .never rfl rfl

/-- Every event of a client's end keeps what it sent first. -/
theorem Greeted.event {packet : IPacket} (hg : Greeted packet c)
    (h : Phase host ids heard .toServer c)
    (ha : Link.connectFails a = false) (hs : step host ids a c = some c') :
    Greeted packet c' := by
  have hesc := (of_step hs).1
  cases hg with
  | before hinit hconn hsent =>
      cases h with
      | dialing self initPacket now =>
          obtain rfl : initPacket = some packet := hinit
          rcases dialing_event hs with hc | rfl
          · cases a with
            | connectDone ok leftOpen =>
                obtain rfl : ok = true := by simpa [Link.connectFails] using ha
                exact greeted_connected hs
            | _ => cases hc
          · exact .before rfl rfl rfl
      | talking _ _ hr hp =>
          obtain ⟨done, stage, hp⟩ := hp
          rw [hp.connecting] at hconn
          cases hconn
      | failed _ he =>
          rw [hesc] at he
          cases he
  | sent call rest hsent hcall =>
      cases h with
      | dialing self initPacket now => cases hsent
      | talking _ _ hr hp =>
          obtain ⟨done, stage, hp⟩ := hp
          have hnot : isConnect a = false := by
            cases a with
            | connectDone ok leftOpen =>
                have hconn := (of_step_connectDone hs).1
                rw [hp.connecting] at hconn
                cases hconn
            | _ => rfl
          obtain ⟨more, hmore⟩ := step_sent hnot hs
          rw [hsent] at hmore
          exact .sent call (rest ++ more) hmore.symm hcall
      | failed _ he =>
          rw [hesc] at he
          cases he
  | never he =>
      rw [hesc] at he
      cases he

/-- What has been sent does not depend on what arrives. -/
theorem Greeted.arrive {packet : IPacket} (hg : Greeted packet c)
    (bytes : List UInt8) : Greeted packet { c with incoming := bytes } := by
  cases hg with
  | before hinit hconn hsent => exact .before hinit hconn hsent
  | sent call rest hsent hcall => exact .sent call rest hsent hcall
  | never hesc hsent => exact .never hesc hsent

end Connection

namespace Link

open Connection

variable {host : Side → ByteOrder} {ids : Side → PacketIDs} {l l' : Link}
  {packet : IPacket} {fs : List WireFrame} {rest : List UInt8}

-- ======================================================= the first frame

/-- The bytes a server has heard are a part of a stream that begins with
the packet its client was given. -/
theorem heard_part (h : Joined host ids l)
    (hg : Greeted packet (l.conn .client)) :
    l.heard .server = []
      ∨ ∃ call tail, Prepared (host .client) call ∧ call.packet = packet
        ∧ l.heard .server <+: headerBytes (host .client) call.info
          ++ bodyBytes call.info ++ tail := by
  obtain ⟨hsaid, hprep⟩ := (h.phase .client).said
  have hpart : l.heard .server <+: wire (host .client)
      ((l.conn .client).sent.map (·.info)) :=
    (List.take_prefix _ _).trans hsaid
  have hnone (hsent : (l.conn .client).sent = []) : l.heard .server = [] := by
    rw [hsent] at hpart
    exact List.prefix_nil.mp hpart
  cases hg with
  | before hinit hconn hsent => exact .inl (hnone hsent)
  | never hesc hsent => exact .inl (hnone hsent)
  | sent call more hsent hcall =>
      rw [hsent] at hpart hprep
      exact .inr ⟨call, _, hprep call (List.mem_cons_self ..), hcall, hpart⟩

/-- The client's first message is an `Init` of the server's. -/
structure Joins (ids : Side → PacketIDs) (packet : IPacket) : Prop where
  id : packet.id = (ids .server).init
  length : (bodyOf packet).length = 17

/-- An `Init` is not delivered, so its server has taken no frame. -/
theorem taken_eq_nil (h : Joined host ids l)
    (hg : Greeted packet (l.conn .client)) (hjoins : Joins ids packet)
    (hr : Reader (ids .server) .toClient (l.heard .server) (l.conn .server) fs
      rest) : fs = [] := by
  cases fs with
  | nil => rfl
  | cons f fs =>
      rcases heard_part h hg with hnil | ⟨call, tail, hcall, rfl, hpart⟩
      · have hframes := hr.cursor.frames
        rw [hnil] at hframes
        cases hframes
      · have hframe := isFrame_of_fits hcall (by rw [hjoins.length]; decide)
        have hf := hr.cursor.head?_of_part frames hpart hframe f rfl
        have hord := ordinary_of_deliver
          (hr.delivered f (List.mem_cons_self ..))
        have hheader := frameOf_header hcall
        rw [frameOf, ← hf] at hheader
        rw [ordinary, hr.direction, hheader, hjoins.id] at hord
        simp at hord

/-- Nor does it complete a KeepAlive. -/
theorem pong?_eq_none (h : Joined host ids l)
    (hg : Greeted packet (l.conn .client)) (hjoins : Joins ids packet)
    (hr : Reader (ids .server) .toClient (l.heard .server) (l.conn .server) fs
      rest) (a : Connection.Action) :
    pong? (host .server) (ids .server) (l.conn .server) a = none := by
  obtain rfl := taken_eq_nil h hg hjoins hr
  by_contra hsome
  unfold pong? at hsome
  split at hsome
  case h_2 => exact hsome rfl
  case h_1 n now =>
    split at hsome
    case isFalse => exact hsome rfl
    case isTrue hcond =>
      obtain ⟨hpong, hmem, -⟩ := hcond
      obtain ⟨hb, bs, hlen, hrest, hheader, -⟩ :=
        hr.awaiting.of_mem_body hmem
      rw [hr.cursor.eq_stream] at hrest
      -- the header awaited is the first the client sent
      rcases heard_part h hg with hnil | ⟨call, tail, hcall, rfl, hpart⟩
      · rw [hnil] at hrest
        have := congrArg List.length hrest
        rw [List.length_append, hlen, List.length_nil] at this
        omega
      · rw [hrest, List.append_assoc] at hpart
        have hsame : hb = headerBytes (host .client) call.info := by
          obtain ⟨more, hmore⟩ := hpart
          rw [List.append_assoc] at hmore
          exact List.append_inj_left hmore
            (hlen.trans (headerBytes_length _ _).symm)
        have hinit := frameOf_header hcall
        rw [hjoins.length] at hinit
        rw [hheader, hsame] at hpong
        have hsize := hpong.2.2
        have hdecode : decodeHeader (headerBytes (host .client) call.info)
            = (frameOf (host .client) call).1 := rfl
        rw [hdecode, hinit] at hsize
        have hne : UInt16.ofNat 17 ≠ 8 := by decide
        exact hne hsize

-- ================================================================ results

/-- Nothing the client has to say has got to the server. -/
structure Unheard (host : Side → ByteOrder) (ids : Side → PacketIDs)
    (packet : IPacket) (since : TimePoint) (l : Link) : Prop
    extends Joined host ids l where
  greeted : Greeted packet (l.conn .client)
  time : (l.conn .server).mLastKeepAlive = since

/-- Every step leaves it so. -/
theorem Unheard.step {since : TimePoint} (hjoins : Joins ids packet)
    (h : Unheard host ids packet since l) {a : Action}
    (hs : Link.step host ids a l = some l') :
    Unheard host ids packet since l' := by
  have hjoined := h.toJoined.step hs
  rcases step_cases hs with
    ⟨side, b, c', -, hb, hc', rfl⟩ | ⟨side, n, -, hn, rfl⟩
  · cases side with
    | server =>
        have hne : Side.client ≠ .server := by decide
        refine ⟨hjoined, ?_, ?_⟩
        · rw [setConn_of_ne hne]
          exact h.greeted
        · rw [setConn_same]
          obtain ⟨fs, rest, hr⟩ := (h.phase .server).reader
          have hnone := pong?_eq_none h.toJoined h.greeted hjoins hr b
          have hwrong : NoRightPong (host .server) (ids .server)
              (l.conn .server) b := by
            intro hp
            rw [hnone] at hp
            cases hp
          rw [(step_beat hr.direction hr hc').time hwrong, hnone]
          exact h.time
    | client =>
        have hne : Side.server ≠ .client := by decide
        refine ⟨hjoined, ?_, ?_⟩
        · rw [setConn_same]
          exact h.greeted.event (h.phase .client) hb hc'
        · rw [setConn_of_ne hne]
          exact h.time
  · obtain ⟨bytes, hclient⟩ := conn_arrive l side n .client
    obtain ⟨bytes', hserver⟩ := conn_arrive l side n .server
    refine ⟨hjoined, ?_, ?_⟩
    · rw [hclient]
      exact h.greeted.arrive bytes
    · rw [hserver]
      exact h.time

variable {self : Side → Nat} {now : Side → TimePoint} {acts : List Action}

theorem unheard_run (hjoins : Joins ids packet)
    (hrun : Lts.run (step host ids) (start self (some packet) now) acts
      = some l) : Unheard host ids packet (now .server) l := by
  refine Lts.run_invariant (Unheard host ids packet (now .server))
    (fun _ _ _ h hs => h.step hjoins hs) ?_ hrun
  exact ⟨joined_start self (some packet) now, .before rfl rfl rfl, rfl⟩

/-- An `Init` of the server's, as `PacketClient::Connect()` makes it. -/
theorem joins_init (host : ByteOrder) (p : Init) :
    Joins ids (p.toPacket host (ids .server).init) := by
  refine ⟨rfl, ?_⟩
  obtain ⟨body, -, hbody⟩ := @bodyOf_of_emits
    (p.toPacket host (ids .server).init) _ (p.emits_write host)
    (by rw [p.toBytes_length]; decide)
  rw [hbody, p.toBytes_length]

/-- Once a client has connected with an `Init`, its server receives
nothing from it: no message is delivered, and it is never heard of again
after the accept. -/
theorem joined_is_unheard (p : Init)
    (hrun : Lts.run (step host ids) (start self
      (some (p.toPacket (host .client) (ids .server).init)) now) acts
        = some l) :
    (l.conn .server).mMessagesIn = []
      ∧ (l.conn .server).mLastKeepAlive = now .server := by
  have h := unheard_run (joins_init (host .client) p) hrun
  obtain ⟨fs, rest, hr⟩ := (h.phase .server).reader
  obtain rfl := taken_eq_nil h.toJoined h.greeted
    (joins_init (host .client) p) hr
  exact ⟨hr.messages, h.time⟩

/-- A client that joins, and says something else after its `Init`. -/
def joining : Link :=
  start (fun _ => 0) (some (Init.toPacket .little 2
    ⟨.zero, 7, ⟨⟨101, 110⟩, ⟨0, 0⟩⟩, NextInitStep.join⟩)) fun _ => 0

/-- What happens until the server has read the `Init` and the other
message has arrived. -/
def joins : List Action :=
  [.event .client (.connectDone true true), .event .client .posted,
    .event .client (.send ⟨9, pure ⟨⟩⟩), .event .client .posted,
    .event .client (.writeDone .header true 1),
    .event .client (.writeDone .body true 2), .arrive .server 25,
    .event .server (.readDone .header true 3),
    .event .server (.readDone (.body 17) true 4)]

/-- The server has not received it. -/
theorem joined_is_unheard_join :
    ∃ l, Lts.run (step (fun _ => .little) fun _ => ⟨1, 2⟩) joining joins
        = some l
      ∧ (l.conn .server).mMessagesIn = [] := by
  have hend : (Lts.run (step (fun _ => .little) fun _ => ⟨1, 2⟩) joining
      joins).isSome = true := by decide +kernel
  obtain ⟨l, hrun⟩ := Option.isSome_iff_exists.mp hend
  exact ⟨l, hrun, (joined_is_unheard _ hrun).1⟩

/-- So it is dropped by the first `SendKeepAlive()` more than 45 seconds
after its accept, whatever it has sent. -/
theorem joined_is_dropped (p : Init)
    (hrun : Lts.run (step host ids) (start self
      (some (p.toPacket (host .client) (ids .server).init)) now) acts
        = some l)
    {s : PacketServer} {k : Nat} (hk : s.connection k = l.conn .server)
    {onClientDisconnect : Option (Option Nat → ServerM PUnit)}
    (hpassive : PacketServer.Passive onClientDisconnect)
    {t later : TimePoint} (ht : now .server + keepAliveMaxDelay < t) :
    some k ∉ (after (PacketServer.sendKeepAlive (host .server) (ids .server)
      onClientDisconnect t later) s).mConnections := by
  have h := unheard_run (joins_init (host .client) p) hrun
  refine PacketServer.sendKeepAlive_drops hpassive ?_
  have hlate : (s.connection k).mLastKeepAlive < t - keepAliveMaxDelay := by
    rw [hk, h.time]
    exact Int.lt_sub_right_of_add_lt ht
  rw [PacketServer.isDead, decide_eq_true hlate, Bool.or_true]

/-- A hundred seconds later the server drops that client. -/
theorem joined_is_dropped_join :
    ∃ l, Lts.run (step (fun _ => .little) fun _ => ⟨1, 2⟩) joining joins
        = some l
      ∧ some 0 ∉ (after (PacketServer.sendKeepAlive .little ⟨1, 2⟩ none
        100000000000 0) ⟨[some 0], fun _ => l.conn .server⟩).mConnections := by
  have hend : (Lts.run (step (fun _ => .little) fun _ => ⟨1, 2⟩) joining
      joins).isSome = true := by decide +kernel
  obtain ⟨l, hrun⟩ := Option.isSome_iff_exists.mp hend
  refine ⟨l, hrun, ?_⟩
  exact joined_is_dropped (s := ⟨[some 0], fun _ => l.conn .server⟩) _ hrun rfl
    (by intro callback hmem; cases hmem) (by decide)

end Link

end AWEnginePacket
