/-
A client's events, as its server sees them.

`Turn` is what an event of a client's end does that its server can ever
notice: nothing, a message of the user's, or the next message taken,
with the answer where it is a KeepAlive (`Answers`). `Phase.turn` says
that every event is one of these, from the connect on. The last section
is about the bytes: a message whose body fits is the frame a `Session`'s
client means, and the answer of a little-endian client is the ping it
answers.
-/
import AWEnginePacket.Proofs.Link
import AWEnginePacket.Proofs.Payload

namespace AWEnginePacket

open Endian (ByteOrder leBytes)
open Effect

namespace Connection

variable {host : ByteOrder} {ids : PacketIDs} {c c' : Connection}
  {a : Action} {now : TimePoint} {stream rest : List UInt8}
  {fs : List WireFrame} {msg : PacketSendInfo}

-- ==================================================== a client's answers

/-- What a client posts when it files `msg`: the answer to a KeepAlive,
nothing otherwise. -/
inductive Answers (host : ByteOrder) (ids : PacketIDs)
    (msg : PacketSendInfo) : List SendCall → Prop
  | echo (call : SendCall) (hid : msg.header.id = ids.keepAlive)
      (hsize : msg.header.size = 8) (hprep : Prepared host call)
      (hcall : call.packet = Ping.toPacket host ids.keepAlive
        ⟨loadUInt64 host (msg.body.bytesFrom 8)⟩) : Answers host ids msg [call]
  | none (hid : msg.header.id ≠ ids.keepAlive) : Answers host ids msg []

/-- A packet an event sends that was not being sent before: a `Send`'s,
or the one a connect begins with. -/
def News (c : Connection) (a : Action) (packet : IPacket) : Prop :=
  packet ∈ sends? a ∨ c.connecting = true ∧ c.mInitPacket = some packet

/-- What an event of a client's end does, as its server sees it. -/
inductive Turn (host : ByteOrder) (ids : PacketIDs) (c : Connection)
    (a : Action) (c' : Connection) : Prop
  | silent (hsent : c'.sent = c.sent)
      (hmsgs : c'.mMessagesIn = c.mMessagesIn)
      (hcalls : ∀ call ∈ c'.calls, call ∈ c.calls ∨ News c a call.packet)
  | speaks (call : SendCall) (hsent : c'.sent = c.sent ++ [call])
      (hmsgs : c'.mMessagesIn = c.mMessagesIn) (hcalls : c'.calls ⊆ c.calls)
      (hcall : call ∈ c.calls ∨ News c a call.packet)
  | receives (m : OwnedMessage) (answer : List SendCall)
      (hsent : c'.sent = c.sent ++ answer)
      (hmsgs : c'.mMessagesIn = c.mMessagesIn ++ [m])
      (hcalls : c'.calls = c.calls)
      (hanswer : Answers host ids m.second answer)

/-- What the end of a read does at a client: a message is filed, and
answered if it is a KeepAlive; or nothing is. -/
inductive Files (host : ByteOrder) (ids : PacketIDs) (c c' : Connection) :
    Prop
  | nothing (hsent : c'.sent = c.sent)
      (hmsgs : c'.mMessagesIn = c.mMessagesIn) (hcalls : c'.calls = c.calls)
  | message (m : OwnedMessage) (answer : List SendCall)
      (hsent : c'.sent = c.sent ++ answer)
      (hmsgs : c'.mMessagesIn = c.mMessagesIn ++ [m])
      (hcalls : c'.calls = c.calls)
      (hanswer : Answers host ids m.second answer)

/-- A client throws a KeepAlive it cannot answer. -/
theorem keepAliveReceived_client_error {e : Fault}
    (hdir : c.mDirection = .toServer)
    (hflags : msg.header.flags = PacketFlags.none)
    (hsize : msg.header.size = 8)
    (hsend : (send host ids (Ping.toPacket host ids.keepAlive
        ⟨loadUInt64 host (msg.body.bytesFrom 8)⟩)).run
      { c with mLastKeepAlive := now } = .error e c') :
    (keepAliveReceived host ids msg now).run c = .error e c' := by
  unfold keepAliveReceived
  dsimp only
  rw [if_neg (not_not_intro hflags), if_neg (not_not_intro hsize),
    EStateM.run_bind, EStateM.run_get]
  dsimp only
  rw [if_pos hdir]
  rw [EStateM.run_bind, EStateM.run_modify]
  exact run_bind_of_error hsend

/-- A client files every message. -/
theorem fileMessage_client (hdir : c.mDirection = .toServer) (s : Connection) :
    (fileMessage host ids c).run s
      = .ok ⟨⟩ { s with
        mMessagesIn := s.mMessagesIn ++ [⟨c.owner, c.mWipInMessage⟩]
        reads := s.reads ++ [.header] } := by
  have hfile : ¬(c.mWipInMessage.header.id = ids.init
      ∧ c.mDirection = .toClient) := by
    rw [hdir]
    rintro ⟨-, h⟩
    cases h
  rw [fileMessage, if_neg hfile]
  rfl

/-- The end of a message at a client: it is filed, and answered if it is
a KeepAlive, or the handler throws and nothing has been said. -/
theorem files_addToIncomingMessageQueue (hdir : c.mDirection = .toServer) :
    Files host ids c
      (runHandler .read (addToIncomingMessageQueue host ids now) c) := by
  rw [runHandler_congr addToIncomingMessageQueue_run]
  obtain ⟨c₀, hc₀⟩ : ∃ c₀ : Connection,
      c₀ = { c with mLastReceivedMessageTime := now
                    mReceivedPacketCount := c.mReceivedPacketCount + 1 } :=
    ⟨_, rfl⟩
  have hsent₀ : c₀.sent = c.sent := by rw [hc₀]; rfl
  have hmsgs₀ : c₀.mMessagesIn = c.mMessagesIn := by rw [hc₀]
  have hcalls₀ : c₀.calls = c.calls := by rw [hc₀]
  have hdir₀ : c₀.mDirection = .toServer := by rw [hc₀]; exact hdir
  rw [← hc₀]
  have hthrown {e : Fault} : Files host ids c
      { c₀ with escaped := some (.read, e) } :=
    .nothing hsent₀ hmsgs₀ hcalls₀
  by_cases hid : c.mWipInMessage.header.id = ids.keepAlive
  · rw [if_pos hid]
    by_cases hbad : c.mWipInMessage.header.flags ≠ PacketFlags.none
        ∨ c.mWipInMessage.header.size ≠ 8
    · obtain ⟨e, hthrow⟩ :=
        @keepAliveReceived_fault host ids c₀ now c.mWipInMessage hbad
      rw [runHandler, run_bind_of_error hthrow]
      exact hthrown
    · rw [not_or, not_not, not_not] at hbad
      obtain ⟨hflags, hsize⟩ := hbad
      cases hsend : (send host ids (Ping.toPacket host ids.keepAlive
          ⟨loadUInt64 host (c.mWipInMessage.body.bytesFrom 8)⟩)).run
        { c₀ with mLastKeepAlive := now } with
      | ok u c₁ =>
          have hrun := keepAliveReceived_client hdir₀ hflags hsize hsend
          obtain ⟨call, hcall, hposts, -⟩ := of_send_ok_posts hsend
          have hside := ((send_keeps_reading _).of_ok hsend).1
          have hmsgs : c₁.mMessagesIn = c₀.mMessagesIn :=
            congrArg (fun side => side.2.2.2.1) hside
          rw [runHandler, run_bind_of_ok hrun, fileMessage_client hdir]
          refine .message ⟨c.owner, c.mWipInMessage⟩ [call] ?_ ?_ ?_
            (.echo call hid hsize ?_ hcall)
          · exact hposts.sent.trans (congrArg (· ++ [call]) hsent₀)
          · show c₁.mMessagesIn ++ _ = _
            rw [hmsgs, hmsgs₀]
          · exact hposts.calls.trans hcalls₀
          · exact hposts.prepared call (List.mem_singleton_self call)
      | error e c₁ =>
          have hrun := keepAliveReceived_client_error hdir₀ hflags hsize hsend
          rw [runHandler, run_bind_of_error hrun, of_send_error hsend]
          exact .nothing hsent₀ hmsgs₀ hcalls₀
  · rw [if_neg hid, runHandler, fileMessage_client hdir]
    refine .message ⟨c.owner, c.mWipInMessage⟩ [] ?_ ?_ hcalls₀ (.none hid)
    · rw [List.append_nil]
      exact hsent₀
    · show c₀.mMessagesIn ++ _ = _
      rw [hmsgs₀]

/-- The end of a read at a client. -/
theorem files_readDone {op : ReadOp} {ok : Bool}
    (hdir : c.mDirection = .toServer)
    (hs : step host ids (.readDone op ok now) c = some c') :
    Files host ids c c' := by
  have hesc := (of_step hs).1
  have hmem := (of_step_readDone hs).1
  have hfiles {c₁ : Connection} (hsent : c₁.sent = c.sent)
      (hmsgs : c₁.mMessagesIn = c.mMessagesIn) (hcalls : c₁.calls = c.calls)
      (h : Files host ids c₁ c') : Files host ids c c' := by
    cases h with
    | nothing hs hm hc =>
        exact .nothing (hs.trans hsent) (hm.trans hmsgs) (hc.trans hcalls)
    | message m answer hs hm hc hanswer =>
        rw [hsent] at hs
        rw [hmsgs] at hm
        exact .message m answer hs hm (hc.trans hcalls) hanswer
  cases ok with
  | false =>
      obtain ⟨-, msg, rfl⟩ := of_step_readFailed hs
      exact .nothing rfl rfl rfl
  | true =>
      have hlen := wants_le_of_readDone hs
      cases op with
      | header =>
          rw [step_headerRead hesc hmem hlen, Option.some.injEq] at hs
          by_cases hsize : (decodeHeader (c.incoming.take 4)).size = 0
          · rw [if_pos hsize] at hs
            refine @hfiles (headerArrived c) rfl rfl rfl ?_
            rw [← hs]
            exact files_addToIncomingMessageQueue hdir
          · rw [if_neg hsize] at hs
            rw [← hs]
            exact .nothing rfl rfl rfl
      | body n =>
          rw [step_bodyRead hesc hmem hlen, Option.some.injEq] at hs
          split at hs
          · rw [← hs]
            exact .nothing rfl rfl rfl
          · refine @hfiles (bodyArrived n c) rfl rfl rfl ?_
            rw [← hs]
            exact files_addToIncomingMessageQueue hdir

/-- What leaves the messages and the calls alone is silent. -/
theorem turn_of_same (hsent : c'.sent = c.sent)
    (hmsgs : c'.mMessagesIn = c.mMessagesIn) (hcalls : c'.calls = c.calls) :
    Turn host ids c a c' := by
  refine .silent hsent hmsgs fun call h => .inl ?_
  rw [← hcalls]
  exact h

/-- The end of a read is a turn. -/
theorem Files.turn (h : Files host ids c c') : Turn host ids c a c' := by
  cases h with
  | nothing hsent hmsgs hcalls => exact turn_of_same hsent hmsgs hcalls
  | message m answer hsent hmsgs hcalls hanswer =>
      exact .receives m answer hsent hmsgs hcalls hanswer

/-- Every event of a connected client's end is a turn. -/
theorem step_turn (hr : Reader ids .toServer stream c fs rest)
    (hs : step host ids a c = some c') : Turn host ids c a c' := by
  cases a with
  | send packet =>
      obtain ⟨call, hpacket, hprep, hconn, rfl⟩ := of_step_send hs
      have hposts := remembered_posts host ids c call.info
      have hmsgs := (@remembered_readFrame host ids c call.info).1
      refine .speaks call ?_ ?_ ?_ (.inr (.inl ?_))
      · rw [post_sent, hposts.sent, List.append_nil]
      · exact congrArg (fun side => side.2.2.2.1) hmsgs
      · show (remembered host ids c call.info).calls ⊆ c.calls
        rw [hposts.calls]
        exact List.Subset.refl c.calls
      · rw [hpacket]
        rfl
  | sendBegin packet =>
      obtain ⟨call, hpacket, hprep, hconn, rfl⟩ := of_step_sendBegin hs
      have hposts := remembered_posts host ids c call.info
      have hmsgs := (@remembered_readFrame host ids c call.info).1
      refine .silent (hposts.sent.trans (List.append_nil _)) ?_ ?_
      · exact congrArg (fun side => side.2.2.2.1) hmsgs
      · intro call' hcall'
        rcases List.mem_append.mp hcall' with h | h
        · rw [hposts.calls] at h
          exact .inl h
        · rw [List.mem_singleton.mp h, hpacket]
          exact .inr (.inl rfl)
  | sendEnd i =>
      obtain ⟨call, hcall, rfl⟩ := of_step_sendEnd hs
      refine .speaks call ?_ rfl List.eraseIdx_subset
        (.inl (List.mem_of_getElem? hcall))
      rw [post_sent]
      rfl
  | disconnect =>
      rcases of_step_disconnect hs with rfl | rfl
      · exact turn_of_same rfl rfl rfl
      · exact turn_of_same rfl rfl rfl
  | posted =>
      obtain ⟨handler, handlers, -, rfl⟩ := of_step_posted hs
      have h := (@runHandler_apart .posted _ (@runPosted_keeps host handler)
        { c with posted := handlers }).1
      have hsent := of_apart sent (fun _ => rfl) h
      have hmsgs := of_apart mMessagesIn (fun _ => rfl) h
      have hcalls := of_apart Connection.calls (fun _ => rfl) h
      exact turn_of_same hsent hmsgs hcalls
  | writeDone op ok now =>
      obtain ⟨-, rfl⟩ := of_step_writeDone hs
      have h := (@runHandler_apart .write _
        (@writeCompleted_keeps host op ok now)
        { c with writes := c.writes.erase op }).1
      have hsent := of_apart sent (fun _ => rfl) h
      have hmsgs := of_apart mMessagesIn (fun _ => rfl) h
      have hcalls := of_apart Connection.calls (fun _ => rfl) h
      exact turn_of_same hsent hmsgs hcalls
  | readDone op ok now => exact (files_readDone hr.direction hs).turn
  | connectDone ok leftOpen =>
      have hc := (of_step_connectDone hs).1
      rw [hr.connecting] at hc
      cases hc

/-- The connect completes: the client sends what it was given to begin
with, or could not. -/
theorem turn_connected {self : Nat} {initPacket : Option IPacket}
    {now : TimePoint} {heard : List UInt8} {leftOpen : Bool}
    (hs : step host ids (.connectDone true leftOpen)
      (after (connectToServer initPacket)
        (create self .toServer false heard now)) = some c') :
    Turn host ids (after (connectToServer initPacket)
        (create self .toServer false heard now))
      (.connectDone true leftOpen) c' ∧ c'.connecting = false := by
  by_cases hesc : c'.escaped = none
  · obtain ⟨c₁, rfl, ⟨rfl, rfl⟩ | ⟨packet, rfl, hsend⟩⟩ :=
      of_connectToServer hs hesc
    · exact ⟨turn_of_same rfl rfl rfl, rfl⟩
    · obtain ⟨call, hcall, hposts, -⟩ := of_send_ok_posts hsend
      have hside := ((send_keeps_reading packet).of_ok hsend).1
      refine ⟨.speaks call hposts.sent ?_ ?_ (.inr (.inr ⟨rfl, ?_⟩)),
        hposts.connecting⟩
      · exact congrArg (fun side => side.2.2.2.1) hside
      · show c₁.calls ⊆ _
        rw [hposts.calls]
        exact List.Subset.refl _
      · rw [hcall]
        rfl
  · obtain ⟨e, rfl⟩ := connect_thrown hs hesc
    exact ⟨turn_of_same rfl rfl rfl, rfl⟩

/-- Every event of a client's end is a turn, and a connect under way is
one that has not begun. -/
theorem Phase.turn {heard : List UInt8} (h : Phase host ids heard .toServer c)
    (ha : Link.connectFails a = false) (hs : step host ids a c = some c') :
    Turn host ids c a c' ∧ (c'.connecting = true → c' = c) := by
  cases h with
  | dialing self initPacket now =>
      rcases dialing_event hs with hconn | rfl
      · cases a with
        | connectDone ok leftOpen =>
            obtain rfl : ok = true := by simpa [Link.connectFails] using ha
            obtain ⟨hturn, hdone⟩ := turn_connected hs
            refine ⟨hturn, fun hc => ?_⟩
            rw [hdone] at hc
            cases hc
        | _ => cases hconn
      · exact ⟨turn_of_same rfl rfl rfl, fun _ => rfl⟩
  | talking d c hr hp =>
      obtain ⟨fs, rest, hr⟩ := hr
      obtain ⟨fs', rest', hr', -⟩ := reader_step hr hs
      refine ⟨step_turn hr hs, fun hc => ?_⟩
      rw [hr'.connecting] at hc
      cases hc
  | failed c hesc =>
      rw [(of_step hs).1] at hesc
      cases hesc

-- ========================================================== the server

/-- What has been sent on a connection, and what is being sent. -/
def voice (c : Connection) : List IPacket × List IPacket :=
  (c.sent.map (·.packet), c.calls.map (·.packet))

/-- A server's handlers send nothing. -/
theorem handler_silent (hr : Reader ids .toClient stream c fs rest)
    (ha : a.isHandler = true) (hs : step host ids a c = some c') :
    c'.voice = c.voice := by
  have hbeat := step_beat hr.direction hr hs
  cases hbeat with
  | quiet _ _ hpulse =>
      obtain ⟨-, -, -, hcalls, hsent⟩ := fields_of_pulse hpulse
      rw [voice, voice, hcalls, hsent]
  | prepared call ha' =>
      rw [ha'] at ha
      cases ha
  | posted i call ha' =>
      rw [ha'] at ha
      cases ha
  | sent call ha' =>
      rw [ha'] at ha
      cases ha
  | judged payload now _ _ hpulse =>
      obtain ⟨-, -, -, hcalls, hsent⟩ := fields_of_pulse hpulse
      obtain ⟨hsent', hcalls', -⟩ := Session.judged_sent c payload now
      rw [voice, voice, hcalls, hsent, hsent', hcalls']

-- ============================================================== the bytes

/-- Four header bytes, from what they decode to. -/
theorem header_of_decodeHeader {hb : List UInt8} (hlen : hb.length = 4) :
    hb = [(decodeHeader hb).id, (decodeHeader hb).flags,
      UInt8.ofNat ((decodeHeader hb).size.toNat / 256),
      UInt8.ofNat (decodeHeader hb).size.toNat] := by
  match hb, hlen with
  | [id, flags, hi, lo], _ =>
    have hlo := lo.toNat_lt
    have hhi := hi.toNat_lt
    have hsize : (UInt16.ofNat (256 * hi.toNat + lo.toNat)).toNat
        = 256 * hi.toNat + lo.toNat := by
      rw [UInt16.toNat_ofNat', Nat.mod_eq_of_lt (by omega)]
    simp only [decodeHeader, hsize, List.cons.injEq, true_and, and_true]
    constructor
    · apply UInt8.toNat_inj.mp
      rw [UInt8.toNat_ofNat']
      omega
    · apply UInt8.toNat_inj.mp
      rw [UInt8.toNat_ofNat']
      omega

/-- A message whose body fits is the frame a client means. -/
theorem bytes_of_fits {call : SendCall} (hp : Prepared host call)
    (hfit : (bodyOf call.packet).length ≤ 65535) :
    headerBytes host call.info ++ bodyBytes call.info
      = clientFrame call.packet.id PacketFlags.none (bodyOf call.packet) := by
  have hheader := @Link.frameOf_header host call hp
  have hdec : decodeHeader (headerBytes host call.info)
      = ⟨call.packet.id, PacketFlags.none,
          UInt16.ofNat (bodyOf call.packet).length⟩ := hheader
  have hsize : (UInt16.ofNat (bodyOf call.packet).length).toNat
      = (bodyOf call.packet).length := by
    rw [UInt16.toNat_ofNat', Nat.mod_eq_of_lt (by omega)]
  rw [header_of_decodeHeader (headerBytes_length host call.info), hdec,
    clientFrame, hp.bodyOf]
  dsimp only
  rw [← hp.bodyOf, hsize]

/-- The answer to a ping, from a little-endian client, is the ping. -/
theorem echo_bodyOf {id : UInt8} {body : PacketBuffer}
    (hlen : body.bytes.length = 8) :
    bodyOf (Ping.toPacket .little id ⟨loadUInt64 .little (body.bytesFrom 8)⟩)
      = body.bytes := by
  have hle := Endian.leBytes_ofLe body.bytes
  have hlt := Endian.ofLe_lt body.bytes
  rw [hlen] at hle hlt
  rw [Session.ping_bodyOf, PacketBuffer.bytesFrom_eq_take (by omega),
    List.take_of_length_le (by omega), loadUInt64, ByteOrder.load]
  dsimp only
  rw [UInt64.toNat_ofNat_of_lt' hlt, hle]

/-- A server posts nothing but what it was given to send. -/
theorem Beat.mem_posted (hb : Beat host ids c a c') {call : SendCall}
    (hcall : call ∈ c'.sent ++ c'.calls) :
    call ∈ c.sent ++ c.calls ∨ call.packet ∈ sends? a := by
  cases hb with
  | quiet _ _ hpulse =>
      obtain ⟨-, -, -, hcalls, hsent⟩ := fields_of_pulse hpulse
      rw [hcalls, hsent] at hcall
      exact .inl hcall
  | judged payload now _ _ hpulse =>
      obtain ⟨-, -, -, hcalls, hsent⟩ := fields_of_pulse hpulse
      obtain ⟨hsent', hcalls', -⟩ := Session.judged_sent c payload now
      rw [hcalls, hsent, hsent', hcalls'] at hcall
      exact .inl hcall
  | prepared new ha _ hpulse =>
      have hposts := remembered_posts host ids c new.info
      obtain ⟨-, -, -, hcalls, hsent⟩ := fields_of_pulse hpulse
      have hsent := hsent.trans (hposts.sent.trans (List.append_nil _))
      have hcalls : c'.calls = c.calls ++ [new] :=
        hcalls.trans (congrArg (· ++ [new]) hposts.calls)
      rw [hcalls, hsent, ← List.append_assoc] at hcall
      rcases List.mem_append.mp hcall with hmem | hmem
      · exact .inl hmem
      · rw [List.mem_singleton.mp hmem, ha]
        exact .inr rfl
  | sent new ha _ hpulse =>
      have hposts := remembered_posts host ids c new.info
      obtain ⟨-, -, -, hcalls, hsent⟩ := fields_of_pulse hpulse
      rw [post_sent, hposts.sent, List.append_nil] at hsent
      have hcalls : c'.calls = c.calls := hcalls.trans hposts.calls
      rw [hcalls, hsent, List.append_assoc] at hcall
      simp only [List.mem_append, List.mem_singleton] at hcall ⊢
      rcases hcall with hmem | rfl | hmem
      · exact .inl (.inl hmem)
      · rw [ha]
        exact .inr rfl
      · exact .inl (.inr hmem)
  | posted i new _ hnew hpulse =>
      obtain ⟨-, -, -, hcalls, hsent⟩ := fields_of_pulse hpulse
      rw [post_sent] at hsent
      have hcalls : c'.calls = c.calls.eraseIdx i := hcalls
      rw [hcalls, hsent, List.append_assoc] at hcall
      simp only [List.mem_append, List.mem_singleton] at hcall ⊢
      rcases hcall with hmem | rfl | hmem
      · exact .inl (.inl hmem)
      · exact .inl (.inr (List.mem_of_getElem? hnew))
      · exact .inl (.inr (List.eraseIdx_subset hmem))

end Connection

end AWEnginePacket
