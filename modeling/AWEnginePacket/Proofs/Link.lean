/-
What arrives at one end of a link is what the other end sent.

`Phase` is an end between two events: still connecting, at work, or
given up by the exception that left its connect handler. It puts the
end's reader (`Reader`) and its write pump (`Pump`) side by side, so
that the two halves of a connection, proved apart, can be joined:
`Phase.said` bounds what the end has handed to its socket by what it
has sent, `Phase.received` ties its messages to the bytes that have
arrived. `joined_run` carries both ends through every run, and
`delivers` is the two halves put together.
-/
import AWEnginePacket.Model.Link
import AWEnginePacket.Proofs.Session

namespace AWEnginePacket

open Endian (ByteOrder)
open Effect

namespace Connection

variable {host : ByteOrder} {ids : PacketIDs} {d : PacketDirection}
  {c c' : Connection} {a : Action} {heard : List UInt8}

-- ================================================ bytes given to a socket

/-- What was given to the socket stays given. -/
def handedFrame : Frame Connection where
  rel c c' := c.handed <+: c'.handed
  refl _ := List.prefix_rfl
  trans h h' := h.trans h'

theorem asyncWrite_keeps_handed (op : WriteOp) (bytes : List UInt8) :
    Keeps handedFrame (asyncWrite op bytes) := by
  intro c
  exact List.prefix_append c.handed bytes

theorem peekFront_keeps_handed : Keeps handedFrame peekFront := by
  refine keeps_get.bind fun c => ?_
  split
  · exact keeps_throw _
  · exact keeps_pure _

theorem writeHeader_keeps_handed : Keeps handedFrame (writeHeader host) := by
  have hrest : Keeps handedFrame (do
      let front ← peekFront
      asyncWrite .header (front.header.toMemory host) : ConnM PUnit) :=
    peekFront_keeps_handed.bind fun _ => asyncWrite_keeps_handed _ _
  unfold writeHeader
  dsimp only
  exact keeps_get.bind fun _ => .check hrest

theorem messageWritten_keeps_handed (now : TimePoint) :
    Keeps handedFrame (messageWritten host now) := by
  have hpop : Keeps handedFrame popFront := by
    refine keeps_get.bind fun c => ?_
    split
    · exact keeps_throw _
    · exact keeps_modify fun _ => List.prefix_rfl
  unfold messageWritten
  refine hpop.bind fun _ => (keeps_modify ?_).bind fun _ => ?_
  · intro _
    exact List.prefix_rfl
  · exact keeps_get.bind fun _ => .ite writeHeader_keeps_handed (keeps_pure _)

theorem runPosted_keeps_handed (handler : Handler) :
    Keeps handedFrame (runPosted host handler) := by
  cases handler with
  | queueMessage info =>
      refine keeps_get.bind fun _ => (keeps_modify ?_).bind fun _ => ?_
      · intro _
        exact List.prefix_rfl
      · exact .ite writeHeader_keeps_handed (keeps_pure _)
  | close => exact keeps_modify fun _ => List.prefix_rfl

theorem writeCompleted_keeps_handed (op : WriteOp) (ok : Bool)
    (now : TimePoint) :
    Keeps handedFrame (writeCompleted host op ok now) := by
  have hclose : Keeps handedFrame close :=
    keeps_modify fun _ => List.prefix_rfl
  cases op with
  | header =>
      refine .ite (peekFront_keeps_handed.bind fun _ => .ite ?_ ?_) hclose
      · exact peekFront_keeps_handed.bind fun _ => asyncWrite_keeps_handed _ _
      · exact messageWritten_keeps_handed now
  | body => exact .ite (messageWritten_keeps_handed now) hclose

/-- Whatever only posts messages gives nothing to the socket. -/
theorem keeps_handed_of_sends {m : ConnM PUnit}
    (hm : Keeps (sendFrame host) m) : Keeps handedFrame m := by
  apply hm.mono
  rintro c c' ⟨⟨new, hp⟩, -⟩
  exact ⟨[], by rw [List.append_nil, hp.handed]⟩

theorem runHandler_handed {kind : HandlerKind} {m : ConnM PUnit}
    (hm : Keeps handedFrame m) (c : Connection) :
    c.handed <+: (runHandler kind m c).handed := by
  rcases runHandler_cases kind m c with ⟨h, -⟩ | ⟨e, -, h⟩
  · rw [h]
    exact hm c
  · rw [h]
    exact hm c

/-- No event takes bytes back. -/
theorem step_handed (h : step host ids a c = some c') :
    c.handed <+: c'.handed := by
  have hsame {c₁ : Connection} (heq : c₁.handed = c.handed) :
      c.handed <+: c₁.handed := ⟨[], by rw [List.append_nil, heq]⟩
  cases a with
  | send packet =>
      obtain ⟨call, -, -, -, rfl⟩ := of_step_send h
      exact hsame (remembered_posts host ids c call.info).handed
  | sendBegin packet =>
      obtain ⟨call, -, -, -, rfl⟩ := of_step_sendBegin h
      exact hsame (remembered_posts host ids c call.info).handed
  | sendEnd i =>
      obtain ⟨call, -, rfl⟩ := of_step_sendEnd h
      exact hsame rfl
  | disconnect =>
      rcases of_step_disconnect h with rfl | rfl
      · exact hsame rfl
      · exact hsame rfl
  | posted =>
      obtain ⟨handler, rest, -, rfl⟩ := of_step_posted h
      exact runHandler_handed (runPosted_keeps_handed handler)
        { c with posted := rest }
  | writeDone op ok now =>
      obtain ⟨-, rfl⟩ := of_step_writeDone h
      exact runHandler_handed (writeCompleted_keeps_handed op ok now)
        { c with writes := c.writes.erase op }
  | readDone op ok now =>
      rcases (readDone_cases h).2 with ⟨-, -, -, hp⟩ | ⟨-, new, hp⟩
      · exact hsame hp.handed
      · exact hsame hp.handed
  | connectDone ok leftOpen =>
      obtain ⟨-, rfl⟩ := of_step_connectDone h
      refine runHandler_handed ?_ { c with connecting := false
                                           isOpen := ok || leftOpen }
      unfold connectCompleted
      refine (keeps_modify ?_).bind fun _ => .ite ?_ (keeps_pure _)
      · intro _
        exact List.prefix_rfl
      · refine keeps_get.bind fun c => ?_
        have hread := keeps_handed_of_sends (@readHeader_keeps host)
        split
        · exact (keeps_handed_of_sends (send_keeps _)).bind fun _ => hread
        · exact hread

-- ============================================================ one end

/-- An end of a link to which the bytes `heard` have arrived. -/
inductive Phase (host : ByteOrder) (ids : PacketIDs) (heard : List UInt8) :
    PacketDirection → Connection → Prop
  /-- The connect has not completed. -/
  | dialing (self : Nat) (initPacket : Option IPacket) (now : TimePoint) :
      Phase host ids heard .toServer (after (connectToServer initPacket)
        (create self .toServer false heard now))
  /-- Connected: reading what has arrived, and writing. -/
  | talking (d : PacketDirection) (c : Connection)
      (hr : ∃ fs rest, Reader ids d heard c fs rest)
      (hp : ∃ done stage, Pump host c done stage) : Phase host ids heard d c
  /-- The `Init` packet could not be written. -/
  | failed (c : Connection) (hesc : c.escaped.isSome = true)
      (hreads : c.reads = []) (hmsgs : c.mMessagesIn = [])
      (hhanded : c.handed = []) (hsent : c.sent = []) :
      Phase host ids heard .toServer c

/-- What an end has given to its socket is a part of what it has sent. -/
theorem Phase.said (h : Phase host ids heard d c) :
    c.handed <+: wire host (c.sent.map (·.info))
      ∧ ∀ call ∈ c.sent, Prepared host call := by
  have hnone {l : List SendCall} (hl : l = []) :
      ∀ call ∈ l, Prepared host call := by
    intro call hcall
    rw [hl] at hcall
    cases hcall
  cases h with
  | dialing self initPacket now => exact ⟨List.nil_prefix, hnone rfl⟩
  | talking d c hr hp =>
      obtain ⟨done, stage, hp⟩ := hp
      obtain ⟨part, hhanded, hpart⟩ := hp.writing.exists_part
      refine ⟨?_, hp.sentPrepared⟩
      rw [hhanded, hp.infos, wire, Serial.wire, Serial.wire,
        Framing.Format.sent_append, Framing.Format.sent_append,
        List.append_assoc]
      refine (List.prefix_append_right_inj _).mpr ?_
      cases hq : c.mMessagesOut with
      | nil =>
          rw [hq] at hpart
          rw [List.prefix_nil.mp hpart]
          exact List.nil_prefix
      | cons m rest =>
          rw [hq] at hpart
          rw [Framing.Format.sent_cons, List.append_assoc]
          exact hpart.trans (List.prefix_append _ _)
  | failed c hesc hreads hmsgs hhanded hsent =>
      rw [hhanded]
      exact ⟨List.nil_prefix, hnone hsent⟩

/-- A server's end is at work from the start. -/
theorem Phase.reader (h : Phase host ids heard .toClient c) :
    ∃ fs rest, Reader ids .toClient heard c fs rest := by
  cases h with
  | talking _ _ hr hp => exact hr

/-- The messages of an end are frames taken off what has arrived. -/
theorem Phase.received (h : Phase host ids heard d c) :
    ∃ fs rest, frames.Cursor heard fs rest
      ∧ c.mMessagesIn = (Inbox.of c.owner fs).messages := by
  cases h with
  | dialing self initPacket now => exact ⟨[], heard, .start, rfl⟩
  | talking d c hr hp =>
      obtain ⟨fs, rest, hr⟩ := hr
      exact ⟨fs, rest, hr.cursor, hr.messages⟩
  | failed c hesc hreads hmsgs => exact ⟨[], heard, .start, hmsgs⟩

/-- A sender with nothing left to write has given all it sent to its
socket. -/
theorem Phase.said_all (h : Phase host ids heard d c) (hd : Drained c) :
    c.handed = wire host (c.sent.map (·.info)) := by
  cases h with
  | dialing self initPacket now => rfl
  | talking d c hr hp =>
      obtain ⟨done, stage, hp⟩ := hp
      obtain ⟨hout, hqueued⟩ := hd
      have hwriting := hp.writing
      rw [hout] at hwriting
      rw [hp.infos, hout, hqueued, List.append_nil, List.append_nil]
      exact hwriting.out_eq_of_queue_nil
  | failed c hesc hreads hmsgs hhanded hsent =>
      rw [hhanded, hsent]
      rfl

/-- A reader that awaits a header stands in front of what it has not
read. -/
theorem Reader.rest_eq {stream rest : List UInt8} {fs : List WireFrame}
    (hr : Reader ids d stream c fs rest) (hreads : c.reads = [.header]) :
    rest = c.incoming := by
  cases hr.awaiting with
  | header hr' hbody => rfl
  | body hb bs hlen hsize hheader hr' =>
      rw [hr'] at hreads
      cases hreads
  | done rest hr' =>
      rw [hr'] at hreads
      cases hreads

/-- So if there is nothing of that, it has taken all that arrived. -/
theorem Phase.received_all (h : Phase host ids heard d c)
    (hreads : c.reads = [.header]) (hin : c.incoming = []) :
    ∃ fs, frames.Cursor heard fs []
      ∧ c.mMessagesIn = (Inbox.of c.owner fs).messages := by
  cases h with
  | dialing self initPacket now => cases hreads
  | talking d c hr hp =>
      obtain ⟨fs, rest, hr⟩ := hr
      obtain rfl := hr.rest_eq hreads
      refine ⟨fs, ?_, hr.messages⟩
      rw [← hin]
      exact hr.cursor
  | failed c hesc hr =>
      rw [hr] at hreads
      cases hreads

/-- More bytes arrive. -/
theorem Phase.arrive (h : Phase host ids heard d c) (bytes : List UInt8) :
    Phase host ids (heard ++ bytes) d
      { c with incoming := c.incoming ++ bytes } := by
  cases h with
  | dialing self initPacket now => exact .dialing self initPacket now
  | talking d c hr hp =>
      obtain ⟨fs, rest, hr⟩ := hr
      obtain ⟨done, stage, hp⟩ := hp
      refine .talking d _ ⟨fs, _, Session.reader_hear hr bytes⟩
        ⟨done, stage, ?_⟩
      exact ⟨hp.writing, hp.writes, hp.infos, hp.count, hp.sentPrepared,
        hp.callsPrepared, hp.isConnecting, hp.connecting⟩
  | failed c hesc hreads hmsgs hhanded hsent =>
      exact .failed _ hesc hreads hmsgs hhanded hsent

/-- Before its connect completes, an end does nothing else. -/
theorem dialing_event {self : Nat} {initPacket : Option IPacket}
    {now : TimePoint} (h : step host ids a (after (connectToServer initPacket)
      (create self .toServer false heard now)) = some c') :
    isConnect a = true ∨ c' = after (connectToServer initPacket)
      (create self .toServer false heard now) := by
  cases a with
  | send packet =>
      obtain ⟨-, -, -, hc, -⟩ := of_step_send h
      cases hc
  | sendBegin packet =>
      obtain ⟨-, -, -, hc, -⟩ := of_step_sendBegin h
      cases hc
  | sendEnd i =>
      obtain ⟨call, hcall, -⟩ := of_step_sendEnd h
      cases hcall
  | disconnect =>
      have h := (of_step h).2
      unfold event at h
      rw [Option.some.injEq] at h
      exact .inr h.symm
  | posted =>
      obtain ⟨handler, rest, hposted, -⟩ := of_step_posted h
      cases hposted
  | writeDone op ok t => cases (of_step_writeDone h).1
  | readDone op ok t => cases (of_step_readDone h).1
  | connectDone ok leftOpen => exact .inl rfl

/-- A `Send` that throws leaves the connection as it was. -/
theorem of_send_error {packet : IPacket} {e : Fault}
    (h : (send host ids packet).run c = .error e c') : c' = c := by
  unfold send at h
  cases hprep : (prepare host ids packet).run c with
  | ok call c₁ =>
      rw [run_bind_of_ok hprep] at h
      cases h
  | error e₁ c₁ =>
      rw [run_bind_of_error hprep] at h
      injection h with _ hc
      rw [← hc, of_prepare_error host ids hprep]

/-- The connect handler throws only over the `Init` packet, and then it
has done nothing else. -/
theorem connect_thrown {self : Nat} {initPacket : Option IPacket}
    {now : TimePoint} {leftOpen : Bool}
    (h : step host ids (.connectDone true leftOpen)
      (after (connectToServer initPacket)
        (create self .toServer false heard now)) = some c')
    (hesc : c'.escaped ≠ none) :
    ∃ e, c' = { linked self heard now initPacket with
      escaped := some (.connect, e) } := by
  obtain ⟨-, hc'⟩ := of_step_connectDone h
  rw [runHandler_congr (connectCompleted_run _)] at hc'
  cases initPacket with
  | none => exact absurd (hc' ▸ rfl) hesc
  | some packet =>
      have hc' : c' = runHandler .connect
          (send host ids packet >>= fun _ => readHeader)
          (linked self heard now (some packet)) := hc'
      unfold runHandler at hc'
      cases hsend : (send host ids packet).run
          (linked self heard now (some packet)) with
      | ok u c₁ =>
          obtain ⟨-, -, -, he⟩ := of_send_ok_posts hsend
          rw [run_bind_of_ok hsend] at hc'
          exact absurd ((congrArg escaped hc').trans he) hesc
      | error e c₁ =>
          rw [run_bind_of_error hsend, of_send_error hsend] at hc'
          exact ⟨e, hc'⟩

/-- The connect completes: the end reads and writes, or its `Init` packet
could not be written. -/
theorem Phase.connected {self : Nat} {initPacket : Option IPacket}
    {now : TimePoint} {leftOpen : Bool}
    (h : step host ids (.connectDone true leftOpen)
      (after (connectToServer initPacket)
        (create self .toServer false heard now)) = some c') :
    Phase host ids heard .toServer c' := by
  by_cases hesc : c'.escaped = none
  · have hr : Reader ids c'.mDirection heard c' [] heard :=
      (listening_connectToServer h hesc).reader
    have hdir : c'.mDirection = .toServer := by
      obtain ⟨c₁, rfl, ⟨-, rfl⟩ | ⟨packet, -, hsend⟩⟩ :=
        of_connectToServer h hesc
      · rfl
      · obtain ⟨hside, -, -⟩ := (send_keeps_reading packet).of_ok hsend
        simp only [readSide, Prod.mk.injEq] at hside
        exact hside.2.2.2.2.1
    rw [hdir] at hr
    exact .talking _ c' ⟨[], heard, hr⟩
      ⟨[], .idle, (fresh_connectToServer h hesc).pump⟩
  · obtain ⟨e, rfl⟩ := connect_thrown h hesc
    exact .failed _ rfl rfl rfl rfl rfl

/-- Every event but a failed connect keeps the phase. -/
theorem Phase.event (h : Phase host ids heard d c)
    (ha : Link.connectFails a = false) (hs : step host ids a c = some c') :
    Phase host ids heard d c' := by
  cases h with
  | dialing self initPacket now =>
      rcases dialing_event hs with hconn | rfl
      · cases a with
        | connectDone ok leftOpen =>
            obtain rfl : ok = true := by simpa [Link.connectFails] using ha
            exact .connected hs
        | _ => cases hconn
      · exact .dialing self initPacket now
  | talking d c hr hp =>
      obtain ⟨fs, rest, hr⟩ := hr
      obtain ⟨done, stage, hp⟩ := hp
      obtain ⟨fs', rest', hr', -⟩ := reader_step hr hs
      exact .talking d c' ⟨fs', rest', hr'⟩ (step_move hp hs).pump
  | failed c hesc =>
      rw [(of_step hs).1] at hesc
      cases hesc

end Connection

open Connection

-- ========================================================== both ends

/-- The direction of an end's packets. -/
def Side.direction : Side → PacketDirection
  | .server => .toClient
  | .client => .toServer

@[simp] theorem Side.peer_peer (side : Side) : side.peer.peer = side := by
  cases side <;> rfl

theorem Side.peer_ne (side : Side) : side.peer ≠ side := by
  cases side <;> nofun

theorem Side.eq_peer {side other : Side} (h : other ≠ side) :
    other = side.peer := by
  cases side <;> cases other <;> first | rfl | exact absurd rfl h

namespace Link

variable {host : Side → ByteOrder} {ids : Side → PacketIDs} {l l' : Link}
  {side other : Side} {self : Side → Nat} {initPacket : Option IPacket}
  {now : Side → TimePoint} {acts : List Action}

/-- The bytes that have arrived at an end. -/
def heard (l : Link) (side : Side) : List UInt8 :=
  (l.conn side.peer).handed.take (l.arrived side)

/-- Both ends at work, and no more has arrived than was sent. -/
structure Joined (host : Side → ByteOrder) (ids : Side → PacketIDs)
    (l : Link) : Prop where
  phase : ∀ side, Phase (host side) (ids side) (l.heard side) side.direction
    (l.conn side)
  arrived_le : ∀ side, l.arrived side ≤ (l.conn side.peer).handed.length

theorem setConn_same (l : Link) (side : Side) (c : Connection) :
    (l.setConn side c).conn side = c := Function.update_self ..

theorem setConn_of_ne {c : Connection} (h : other ≠ side) :
    (l.setConn side c).conn other = l.conn other :=
  Function.update_of_ne h ..

/-- What one end has heard does not depend on its own state. -/
theorem heard_setConn (l : Link) (side : Side) (c : Connection) :
    (l.setConn side c).heard side = l.heard side := by
  rw [heard, setConn_of_ne side.peer_ne]
  rfl

/-- The steps of a link: an event of one end, or an arrival. -/
theorem step_cases {a : Action} (h : step host ids a l = some l') :
    (∃ side b c', a = .event side b ∧ connectFails b = false
        ∧ Connection.step (host side) (ids side) b (l.conn side) = some c'
        ∧ l' = l.setConn side c')
      ∨ ∃ side n, a = .arrive side n ∧ n ≤ (l.inTransit side).length
          ∧ l' = l.arrive side n := by
  cases a with
  | event side b =>
      unfold step at h
      dsimp only at h
      split at h
      case isTrue => cases h
      case isFalse hb =>
        obtain ⟨c', hc', rfl⟩ := Option.map_eq_some_iff.mp h
        exact .inl ⟨side, b, c', rfl, by simpa using hb, hc', rfl⟩
  | arrive side n =>
      obtain ⟨hn, rfl⟩ := Lts.of_guarded h
      exact .inr ⟨side, n, rfl, hn, rfl⟩

/-- An event of one end is a step of the link. -/
theorem step_event {b : Connection.Action} {c : Connection}
    (hb : connectFails b = false)
    (hs : Connection.step (host side) (ids side) b (l.conn side) = some c) :
    step host ids (.event side b) l = some (l.setConn side c) := by
  simp [step, hb, hs]

/-- What has arrived stays the same when the sender gives its socket
more. -/
theorem heard_extend {c' : Connection}
    (hle : l.arrived side.peer ≤ (l.conn side).handed.length)
    (hext : (l.conn side).handed <+: c'.handed) :
    (l.setConn side c').heard side.peer = l.heard side.peer := by
  obtain ⟨more, hmore⟩ := hext
  rw [heard, heard, side.peer_peer, setConn_same, ← hmore]
  exact List.take_append_of_le_length hle

theorem arrive_conn_same (l : Link) (side : Side) (n : Nat) :
    (l.arrive side n).conn side
      = { l.conn side with
          incoming := (l.conn side).incoming ++ (l.inTransit side).take n } :=
  Function.update_self ..

theorem arrive_conn_of_ne {n : Nat} (h : other ≠ side) :
    (l.arrive side n).conn other = l.conn other := Function.update_of_ne h ..

theorem arrive_arrived_same (l : Link) (side : Side) (n : Nat) :
    (l.arrive side n).arrived side = l.arrived side + n :=
  Function.update_self ..

theorem arrive_arrived_of_ne {n : Nat} (h : other ≠ side) :
    (l.arrive side n).arrived other = l.arrived other :=
  Function.update_of_ne h ..

/-- Nothing but the bytes waiting to be read changes when some arrive. -/
theorem conn_arrive (l : Link) (side : Side) (n : Nat) (other : Side) :
    ∃ bytes, (l.arrive side n).conn other
      = { l.conn other with incoming := bytes } := by
  by_cases ho : other = side
  · subst ho
    exact ⟨_, arrive_conn_same l other n⟩
  · exact ⟨(l.conn other).incoming, arrive_conn_of_ne ho⟩

/-- The next bytes arrive behind those that have. -/
theorem heard_arrive {n : Nat} :
    (l.arrive side n).heard side
      = l.heard side ++ (l.inTransit side).take n := by
  rw [heard, arrive_conn_of_ne side.peer_ne, arrive_arrived_same,
    List.take_add]
  rfl

theorem joined_start (self : Side → Nat) (initPacket : Option IPacket)
    (now : Side → TimePoint) :
    Joined host ids (start self initPacket now) := by
  refine ⟨fun side => ?_, fun side => Nat.zero_le _⟩
  cases side with
  | server =>
      exact .talking .toClient _
        ⟨[], [], (listening_started (self .server) [] (now .server)).reader⟩
        ⟨[], .idle, (fresh_started (self .server) [] (now .server)).pump⟩
  | client => exact .dialing (self .client) initPacket (now .client)

/-- An event of one end. -/
theorem Joined.event (h : Joined host ids l) {b : Connection.Action}
    {c' : Connection} (hb : connectFails b = false)
    (hs : Connection.step (host side) (ids side) b (l.conn side) = some c') :
    Joined host ids (l.setConn side c') := by
  have hle : l.arrived side.peer ≤ (l.conn side).handed.length := by
    have := h.arrived_le side.peer
    rwa [side.peer_peer] at this
  have hext := step_handed hs
  refine ⟨fun other => ?_, fun other => ?_⟩
  · by_cases ho : other = side
    · subst ho
      rw [heard_setConn, setConn_same]
      exact (h.phase other).event hb hs
    · rw [setConn_of_ne ho, Side.eq_peer ho, heard_extend hle hext]
      exact h.phase side.peer
  · by_cases ho : other = side
    · subst ho
      rw [setConn_of_ne other.peer_ne]
      exact h.arrived_le other
    · obtain rfl := Side.eq_peer ho
      rw [side.peer_peer, setConn_same]
      exact hle.trans hext.length_le

/-- Some bytes arrive. -/
theorem Joined.arrive (h : Joined host ids l) {n : Nat}
    (hn : n ≤ (l.inTransit side).length) :
    Joined host ids (l.arrive side n) := by
  have hsame : (l.arrive side n).conn side.peer = l.conn side.peer :=
    arrive_conn_of_ne side.peer_ne
  have hother : (l.arrive side n).arrived side.peer = l.arrived side.peer :=
    arrive_arrived_of_ne side.peer_ne
  have hhanded : ((l.arrive side n).conn side).handed
      = (l.conn side).handed := by rw [arrive_conn_same]
  refine ⟨fun other => ?_, fun other => ?_⟩
  · by_cases ho : other = side
    · subst ho
      rw [heard_arrive, arrive_conn_same]
      exact (h.phase other).arrive _
    · obtain rfl := Side.eq_peer ho
      rw [heard, side.peer_peer, hhanded, hother, hsame]
      have hphase := h.phase side.peer
      rwa [heard, side.peer_peer] at hphase
  · by_cases ho : other = side
    · subst ho
      have hle := h.arrived_le other
      rw [inTransit, List.length_drop] at hn
      rw [hsame, arrive_arrived_same]
      omega
    · obtain rfl := Side.eq_peer ho
      rw [side.peer_peer, hhanded, hother]
      have hle := h.arrived_le side.peer
      rwa [side.peer_peer] at hle

/-- Every step keeps both ends at work. -/
theorem Joined.step (h : Joined host ids l) {a : Action}
    (hs : Link.step host ids a l = some l') : Joined host ids l' := by
  rcases step_cases hs with
    ⟨side, b, c', -, hb, hc', rfl⟩ | ⟨side, n, -, hn, rfl⟩
  · exact h.event hb hc'
  · exact h.arrive hn

/-- In every reachable state both ends are at work. -/
theorem joined_run
    (hrun : Lts.run (step host ids) (start self initPacket now) acts
      = some l) : Joined host ids l :=
  Lts.run_invariant (Joined host ids) (fun _ _ _ h hs => h.step hs)
    (joined_start self initPacket now) hrun

-- =========================================================== delivery

/-- A message, as a receiver decodes it. -/
def frameOf (host : ByteOrder) (call : SendCall) : WireFrame :=
  (frames.decode (headerBytes host call.info), bodyBytes call.info)

/-- A message whose body fits the header's size is a frame. -/
theorem isFrame_of_fits {host : ByteOrder} {call : SendCall}
    (hp : Prepared host call) (hfit : (bodyOf call.packet).length ≤ 65535) :
    frames.IsFrame (headerBytes host call.info) (bodyBytes call.info) := by
  refine ⟨headerBytes_length host call.info, ?_⟩
  rw [hp.bodyOf] at hfit
  exact ((size_iff hp).mpr hfit).symm

/-- The frames an end has taken are the first messages its peer sent. -/
theorem Joined.taken (h : Joined host ids l) {fs : List WireFrame}
    {rest : List UInt8} (hcur : frames.Cursor (l.heard side) fs rest)
    (hfit : ∀ call ∈ (l.conn side.peer).sent,
      (bodyOf call.packet).length ≤ 65535) :
    fs = ((l.conn side.peer).sent.take fs.length).map
      (frameOf (host side.peer)) := by
  obtain ⟨hsaid, hprep⟩ := (h.phase side.peer).said
  have hpart : l.heard side <+: Framing.Format.sent
      (fun call : SendCall => headerBytes (host side.peer) call.info)
      (fun call => bodyBytes call.info) (l.conn side.peer).sent := by
    refine (List.take_prefix _ _).trans ?_
    rw [wire, Serial.wire, Framing.Format.sent, List.flatMap_map] at hsaid
    exact hsaid
  exact hcur.eq_take_of_sent frames _ _ hpart fun call hcall =>
    isFrame_of_fits (hprep call hcall) (hfit call hcall)

/-- The header of a message that fits, in the receiver's byte order. -/
theorem frameOf_header {host : ByteOrder} {call : SendCall}
    (hp : Prepared host call) :
    (frameOf host call).1 = ⟨call.packet.id, PacketFlags.none,
      UInt16.ofNat (bodyOf call.packet).length⟩ := by
  have hsize : call.info.body.size.toUInt16
      = UInt16.ofNat (bodyOf call.packet).length := by
    apply UInt16.toNat_inj.mp
    rw [hp.bodyOf, bodyBytes, call.info.body.bytes_length,
      UInt32.toNat_toUInt16, UInt16.toNat_ofNat']
  rw [frameOf, hp.2, decode_headerBytes, ← hsize]

/-- The body a frame is delivered with is its own if and only if it has
one, or nothing before it had. -/
theorem body_take_iff {owner : Option Nat} {fs : List WireFrame} {k : Nat}
    {f : WireFrame} (hk : fs[k]? = some f)
    (hshort : ∀ g ∈ fs, g.2.length ≤ 65535) :
    PacketBuffer.bytes ⟨(Inbox.of owner (fs.take (k + 1))).body, 0⟩ = f.2
      ↔ f.2 ≠ [] ∨ ∀ g ∈ fs.take k, g.2 = [] := by
  have hle : (Inbox.of owner (fs.take (k + 1))).body.length ≤ 65535 :=
    Inbox.body_length_le owner fun g hg => hshort g (List.mem_of_mem_take hg)
  rw [bytes_of_length_le hle, List.take_add_one, hk, Option.toList_some,
    Inbox.of_append_singleton, Inbox.take]
  by_cases hnil : f.2 = []
  · rw [if_pos hnil, hnil, Inbox.body_eq_nil_iff]
    simp
  · rw [if_neg hnil]
    simp [hnil]

/-- What the `k`-th message an end has received has to do with the `k`-th
its peer sent. -/
theorem Joined.message (h : Joined host ids l)
    (hfit : ∀ call ∈ (l.conn side.peer).sent,
      (bodyOf call.packet).length ≤ 65535)
    {k : Nat} {m : OwnedMessage} (hm : (l.conn side).mMessagesIn[k]? = some m) :
    ∃ call, (l.conn side.peer).sent[k]? = some call
      ∧ m.second.header = ⟨call.packet.id, PacketFlags.none,
          UInt16.ofNat (bodyOf call.packet).length⟩
      ∧ (m.second.body.bytes = bodyOf call.packet
        ↔ bodyOf call.packet ≠ []
          ∨ ∀ earlier ∈ (l.conn side.peer).sent.take k,
              bodyOf earlier.packet = []) := by
  obtain ⟨fs, rest, hcur, hmsgs⟩ := (h.phase side).received
  have hprep := (h.phase side.peer).said.2
  have hfs := h.taken hcur hfit
  rw [hmsgs] at hm
  obtain ⟨f, hf, rfl⟩ := Inbox.getElem?_of _ hm
  obtain ⟨hk, -⟩ := List.getElem?_eq_some_iff.mp hf
  have hf' := hf
  rw [hfs, List.getElem?_map, List.getElem?_take_of_lt hk,
    Option.map_eq_some_iff] at hf'
  obtain ⟨call, hcall, rfl⟩ := hf'
  have hcall' := hprep call (List.mem_of_getElem? hcall)
  have hbodies : ∀ g ∈ fs, g.2.length ≤ 65535 := by
    intro g hg
    rw [hfs] at hg
    obtain ⟨c, hc, rfl⟩ := List.mem_map.mp hg
    have hc' := List.mem_of_mem_take hc
    rw [frameOf, ← (hprep c hc').bodyOf]
    exact hfit c hc'
  have hearlier : (∀ g ∈ fs.take k, g.2 = [])
      ↔ ∀ earlier ∈ (l.conn side.peer).sent.take k,
          bodyOf earlier.packet = [] := by
    rw [hfs, ← List.map_take, List.take_take, Nat.min_eq_left hk.le,
      List.forall_mem_map]
    refine forall₂_congr fun c hc => ?_
    rw [(hprep c (List.mem_of_mem_take hc)).bodyOf]
    rfl
  refine ⟨call, hcall, frameOf_header hcall', ?_⟩
  rw [hcall'.bodyOf, ← hearlier]
  exact body_take_iff hf hbodies

/-- The `k`-th message an end receives is the `k`-th its peer sent, as
long as no body is too long for the header: neither end loses, repeats,
reorders or alters what the other says. The body alone is another's
where the message has none and an earlier one had. -/
theorem delivers
    (hrun : Lts.run (step host ids) (start self initPacket now) acts
      = some l) (side : Side)
    (hfit : ∀ call ∈ (l.conn side.peer).sent,
      (bodyOf call.packet).length ≤ 65535)
    {k : Nat} {m : OwnedMessage} (hm : (l.conn side).mMessagesIn[k]? = some m) :
    ∃ call, (l.conn side.peer).sent[k]? = some call
      ∧ m.second.header = ⟨call.packet.id, PacketFlags.none,
          UInt16.ofNat (bodyOf call.packet).length⟩
      ∧ (m.second.body.bytes = bodyOf call.packet
        ↔ bodyOf call.packet ≠ []
          ∨ ∀ earlier ∈ (l.conn side.peer).sent.take k,
              bodyOf earlier.packet = []) :=
  (joined_run hrun).message hfit hm

/-- Nothing is under way to an end: its peer has written all it sent, all
of that has arrived, and the end has read it all. -/
structure Quiet (l : Link) (side : Side) : Prop where
  drained : Drained (l.conn side.peer)
  arrived : l.arrived side = (l.conn side.peer).handed.length
  incoming : (l.conn side).incoming = []
  reads : (l.conn side).reads = [.header]

/-- A client connects, and its server pings it. -/
def pinged : List Action :=
  [.event .client (.connectDone true true),
    .event .server (.send (Ping.toPacket .little 1 ⟨7⟩)),
    .event .server .posted, .event .server (.writeDone .header true 1),
    .event .server (.writeDone .body true 2), .arrive .client 12,
    .event .client (.readDone .header true 3),
    .event .client (.readDone (.body 8) true 4)]

/-- Where that run leaves the two ends. -/
theorem pinged_run :
    ∃ l, Lts.run (step (fun _ => .little) fun _ => ⟨1, 2⟩)
        (start (fun _ => 0) none fun _ => 0) pinged = some l
      ∧ (l.conn .client).mMessagesIn
        = [⟨none, ⟨⟨1, 0, 8⟩, ⟨[7, 0, 0, 0, 0, 0, 0, 0], 0⟩⟩⟩]
      ∧ (∀ call ∈ (l.conn .server).sent,
          bodyOf call.packet = [7, 0, 0, 0, 0, 0, 0, 0])
      ∧ Quiet l .client := by
  have hend : (Lts.run (step (fun _ => .little) fun _ => ⟨1, 2⟩)
      (start (fun _ => 0) none fun _ => 0) pinged).map (fun l => decide
        ((l.conn .client).mMessagesIn
            = [⟨none, ⟨⟨1, 0, 8⟩, ⟨[7, 0, 0, 0, 0, 0, 0, 0], 0⟩⟩⟩]
          ∧ (∀ call ∈ (l.conn .server).sent,
              bodyOf call.packet = [7, 0, 0, 0, 0, 0, 0, 0])
          ∧ (l.conn .server).mMessagesOut = [] ∧ (l.conn .server).queued = []
          ∧ l.arrived .client = (l.conn .server).handed.length
          ∧ (l.conn .client).incoming = []
          ∧ (l.conn .client).reads = [.header])) = some true := by
    decide +kernel
  obtain ⟨l, hrun, hl⟩ := Option.map_eq_some_iff.mp hend
  obtain ⟨hmsgs, hsent, hout, hqueued, harrived, hin, hreads⟩ :=
    of_decide_eq_true hl
  exact ⟨l, hrun, hmsgs, hsent, ⟨⟨hout, hqueued⟩, harrived, hin, hreads⟩⟩

/-- The client has received that ping. -/
theorem delivers_ping :
    ∃ l m call, Lts.run (step (fun _ => .little) fun _ => ⟨1, 2⟩)
        (start (fun _ => 0) none fun _ => 0) pinged = some l
      ∧ (l.conn .client).mMessagesIn[0]? = some m
      ∧ (l.conn .server).sent[0]? = some call
      ∧ m.second.body.bytes = bodyOf call.packet := by
  obtain ⟨l, hrun, hmsgs, hbody, -⟩ := pinged_run
  obtain ⟨call, hcall, -, hiff⟩ := @delivers _ _ l _ none _ _ hrun .client
    (fun call hcall => by rw [hbody call hcall]; decide) 0
    ⟨none, ⟨⟨1, 0, 8⟩, ⟨[7, 0, 0, 0, 0, 0, 0, 0], 0⟩⟩⟩ (by rw [hmsgs]; rfl)
  refine ⟨l, _, call, hrun, by rw [hmsgs]; rfl, hcall, hiff.mpr (.inl ?_)⟩
  rw [hbody call (List.mem_of_getElem? hcall)]
  decide

-- ============================================================ nothing lost

/-- All a drained peer has sent has arrived. -/
theorem Joined.heard_all (h : Joined host ids l) (hq : Quiet l side) :
    l.heard side = wire (host side.peer)
      ((l.conn side.peer).sent.map (·.info)) := by
  rw [heard, hq.arrived, List.take_length]
  exact (h.phase side.peer).said_all hq.drained

/-- Where nothing is under way, an end has received every message its peer
sent. -/
theorem Joined.received_all (h : Joined host ids l) (hq : Quiet l side)
    (hfit : ∀ call ∈ (l.conn side.peer).sent,
      (bodyOf call.packet).length ≤ 65535) :
    (l.conn side).mMessagesIn.map (·.second.header)
      = (l.conn side.peer).sent.map fun call =>
          ⟨call.packet.id, PacketFlags.none,
            UInt16.ofNat (bodyOf call.packet).length⟩ := by
  obtain ⟨fs, hcur, hmsgs⟩ :=
    (h.phase side).received_all hq.reads hq.incoming
  have hprep := (h.phase side.peer).said.2
  -- the frames taken are all there are
  have hframes := hcur.frames
  have hall := frames.split_frames
    (fun call : SendCall => headerBytes (host side.peer) call.info)
    (fun call => bodyBytes call.info)
    (fun call hcall => isFrame_of_fits (hprep call hcall) (hfit call hcall)) []
  rw [List.append_nil, Framing.Format.split_nil, List.append_nil] at hall
  rw [h.heard_all hq, wire, Serial.wire, Framing.Format.sent,
    List.flatMap_map] at hframes
  rw [Framing.Format.sent] at hall
  rw [hall, Framing.Format.split_nil, List.append_nil] at hframes
  have hfs : fs = (l.conn side.peer).sent.map (frameOf (host side.peer)) :=
    hframes.symm
  rw [hmsgs, Inbox.headers_of, hfs, List.map_map]
  exact List.map_congr_left fun call hcall => frameOf_header (hprep call hcall)

/-- Once nothing is under way, an end has received every message its peer
sent, each under its own header. -/
theorem quiet_delivers_all
    (hrun : Lts.run (step host ids) (start self initPacket now) acts
      = some l) (side : Side)
    (hfit : ∀ call ∈ (l.conn side.peer).sent,
      (bodyOf call.packet).length ≤ 65535) (hq : Quiet l side) :
    (l.conn side).mMessagesIn.map (·.second.header)
      = (l.conn side.peer).sent.map fun call =>
          ⟨call.packet.id, PacketFlags.none,
            UInt16.ofNat (bodyOf call.packet).length⟩ :=
  (joined_run hrun).received_all hq hfit

/-- After a ping was received nothing is under way to the client. -/
theorem quiet_delivers_all_ping :
    ∃ l, Lts.run (step (fun _ => .little) fun _ => ⟨1, 2⟩)
        (start (fun _ => 0) none fun _ => 0) pinged = some l
      ∧ (l.conn .server).sent.map (fun call => (⟨call.packet.id,
          PacketFlags.none, UInt16.ofNat (bodyOf call.packet).length⟩ :
            PacketHeader)) = [⟨1, 0, 8⟩] := by
  obtain ⟨l, hrun, hmsgs, hbody, hquiet⟩ := pinged_run
  have h := @quiet_delivers_all _ _ l _ none _ _ hrun .client
    (fun call hcall => by rw [hbody call hcall]; decide)
    hquiet
  refine ⟨l, hrun, ?_⟩
  rw [hmsgs] at h
  exact h.symm

end Link

end AWEnginePacket
