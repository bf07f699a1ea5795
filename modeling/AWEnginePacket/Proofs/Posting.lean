/-
What a connection has sent, told by its events.

`Connection.sent` is history, which the code does not have. A packet of
the user's enters it with the event that brings its `Send` to the post
(`posts?`), and nothing else enters but a client's answers to KeepAlives
(`tells_step`). So what a server has sent are the packets of the run's
`Send`s, in the order of their posts (`sent_run`), and what a client has
sent are these as well, KeepAlives left aside (`sent_run_apart`).

With that, the stream on the wire is told by the events of a run alone
(`stream_tells_posts`).
-/
import AWEnginePacket.Proofs.Session

namespace AWEnginePacket

open Endian (ByteOrder)
open Effect

namespace Connection

variable {host : ByteOrder} {ids : PacketIDs} {c c' c'' : Connection}
  {a : Action} {new new' : List IPacket} {now : TimePoint}

-- ============================================================ vocabulary

/-- The packet of the user's whose `Send` comes to its post. -/
def posts? (c : Connection) : Action → Option IPacket
  | .send packet => some packet
  | .sendEnd i => c.calls[i]?.map (·.packet)
  | _ => none

variable (host ids) in
/-- The packets the user sends in a run, in the order of their posts. -/
def postsOf (c : Connection) (acts : List Action) : List IPacket :=
  Lts.trace (step host ids) (fun c a => (posts? c a).toList) c acts

/-- The packets of all messages posted so far. -/
def packets (c : Connection) : List IPacket := c.sent.map (·.packet)

/-- The packets `new` have been sent, by the end that it was. -/
structure Tells (c c' : Connection) (new : List IPacket) : Prop where
  direction : c'.mDirection = c.mDirection
  connecting : c'.connecting = c.connecting
  packets : c'.packets = c.packets ++ new

theorem Tells.of_eq (hdir : c'.mDirection = c.mDirection)
    (hconn : c'.connecting = c.connecting) (hhist : c'.hist = c.hist) :
    Tells c c' [] := by
  refine ⟨hdir, hconn, ?_⟩
  rw [Connection.packets, Connection.packets, sent, sent, hhist,
    List.append_nil]

/-- No write handler tells anything. -/
theorem Tells.of_apart (h : c'.apart = c.apart) : Tells c c' [] :=
  .of_eq (Connection.of_apart mDirection (fun _ => rfl) h)
    (Connection.of_apart Connection.connecting (fun _ => rfl) h)
    (Connection.of_apart hist (fun _ => rfl) h)

theorem Tells.trans (h : Tells c c' new) (h' : Tells c' c'' new') :
    Tells c c'' (new ++ new') := by
  refine ⟨h'.direction.trans h.direction, h'.connecting.trans h.connecting, ?_⟩
  rw [h'.packets, h.packets, List.append_assoc]

-- ========================================================== the user's end

variable (host ids) in
theorem tells_remembered (c : Connection) (info : PacketSendInfo) :
    Tells c (remembered host ids c info) [] := by
  have hposts := remembered_posts host ids c info
  refine ⟨?_, hposts.connecting, ?_⟩
  · unfold remembered
    split
    · rfl
    · rfl
  · rw [Connection.packets, hposts.sent, List.append_nil, List.append_nil]
    rfl

theorem tells_post (c : Connection) (call : SendCall) :
    Tells c (after (post call) c) [call.packet] := by
  refine ⟨rfl, rfl, ?_⟩
  rw [Connection.packets, post_sent, List.map_append]
  rfl

-- =============================================================== answers

variable (ids) in
/-- Nothing is sent but KeepAlives. -/
def answerFrame : Frame Connection where
  rel c c' := ∃ own, Tells c c' own ∧ ∀ p ∈ own, p.id = ids.keepAlive
  refl _ := ⟨[], .of_eq rfl rfl rfl, List.forall_mem_nil _⟩
  trans h h' := by
    obtain ⟨own, h, hown⟩ := h
    obtain ⟨own', h', hown'⟩ := h'
    exact ⟨own ++ own', h.trans h', List.forall_mem_append.mpr ⟨hown, hown'⟩⟩

/-- An assignment to fields that have nothing to do with sending. -/
theorem answerFrame_of_eq (hdir : c'.mDirection = c.mDirection)
    (hconn : c'.connecting = c.connecting) (hhist : c'.hist = c.hist) :
    (answerFrame ids).rel c c' :=
  ⟨[], .of_eq hdir hconn hhist, List.forall_mem_nil _⟩

theorem send_answers (p : Ping) :
    Keeps (answerFrame ids)
      (send host ids (Ping.toPacket host ids.keepAlive p)) := by
  intro c
  cases hrun : (send host ids (Ping.toPacket host ids.keepAlive p)).run c with
  | ok u c' =>
      obtain ⟨call, hpacket, -, -, hc'⟩ := of_send_ok hrun
      rw [after_of_ok hrun, hc']
      refine ⟨[] ++ [call.packet],
        (tells_remembered host ids c call.info).trans (tells_post _ call), ?_⟩
      rw [List.nil_append, hpacket]
      exact List.forall_mem_singleton.mpr rfl
  | error e c' =>
      have hkeeps := @send_keeps host ids
        (Ping.toPacket host ids.keepAlive p) c
      rw [after_of_error hrun] at hkeeps ⊢
      unfold send at hrun
      cases hprep : (prepare host ids
          (Ping.toPacket host ids.keepAlive p)).run c with
      | ok call c₁ =>
          rw [run_bind_of_ok hprep] at hrun
          cases hrun
      | error e' c₁ =>
          rw [run_bind_of_error hprep] at hrun
          injection hrun with _ hc
          rw [← hc, of_prepare_error host ids hprep]
          exact (answerFrame ids).refl c

theorem record_answers {o : Obs} (ho : o.call? = none) :
    Keeps (answerFrame ids) (record o) := by
  intro c
  refine ⟨[], ⟨rfl, rfl, ?_⟩, List.forall_mem_nil _⟩
  show (List.filterMap Obs.call? (c.hist ++ [o])).map _ = _
  rw [List.filterMap_append, List.filterMap_cons_none ho, List.filterMap_nil,
    List.append_nil, List.append_nil]
  rfl

/-- Filing a message sends nothing but an answer. -/
theorem addToIncomingMessageQueue_answers (now : TimePoint) :
    Keeps (answerFrame ids) (addToIncomingMessageQueue host ids now) := by
  refine addToIncomingMessageQueue_keeps_of ?_ ?_ ?_ ?_ now
  · exact fun c t n => answerFrame_of_eq rfl rfl rfl
  · exact fun c msgs => answerFrame_of_eq rfl rfl rfl
  · exact fun c => answerFrame_of_eq rfl rfl rfl
  · refine keepAliveReceived_keeps ?_ ?_ send_answers
    · exact fun c t => answerFrame_of_eq rfl rfl rfl
    · exact fun o ho => record_answers ho

/-- A message is filed: a server sends nothing, a client no more than the
answer to a KeepAlive. -/
theorem tells_filed (c : Connection) (now : TimePoint) :
    ∃ own, Tells c
        (runHandler .read (addToIncomingMessageQueue host ids now) c) own
      ∧ (∀ p ∈ own, p.id = ids.keepAlive)
      ∧ (c.mDirection = .toClient → own = []) := by
  obtain ⟨own, htells, hown⟩ :=
    @addToIncomingMessageQueue_answers host ids now c
  have htold : Tells c
      (runHandler .read (addToIncomingMessageQueue host ids now) c) own := by
    rcases runHandler_cases .read (addToIncomingMessageQueue host ids now) c
      with ⟨h, -⟩ | ⟨e, -, h⟩
    · rw [h]
      exact htells
    · rw [h]
      exact ⟨htells.direction, htells.connecting, htells.packets⟩
  refine ⟨own, htold, hown, fun hdir => ?_⟩
  -- what a server does instead is judge the payload
  have hpulse := @addToIncomingMessageQueue_pulse host ids c now hdir
  have hsent : (runHandler .read
      (addToIncomingMessageQueue host ids now) c).sent = c.sent := by
    split at hpulse
    · rw [(fields_of_pulse hpulse).2.2.2.2]
      exact (Session.judged_sent c _ now).1
    · exact (fields_of_pulse hpulse).2.2.2.2
  have hpackets := htold.packets
  rw [packets, hsent] at hpackets
  exact List.self_eq_append_right.mp hpackets

-- ================================================================= steps

/-- What one event sends: the user's packet, if it brings one to its
post, and at a client the answer to a KeepAlive. -/
theorem tells_step (hconn : c.connecting = false)
    (hs : step host ids a c = some c') :
    ∃ own, Tells c c' ((posts? c a).toList ++ own)
      ∧ (∀ p ∈ own, p.id = ids.keepAlive)
      ∧ (c.mDirection = .toClient → own = []) := by
  have hnone (h : Tells c c' ((posts? c a).toList)) :
      ∃ own, Tells c c' ((posts? c a).toList ++ own)
        ∧ (∀ p ∈ own, p.id = ids.keepAlive)
        ∧ (c.mDirection = .toClient → own = []) :=
    ⟨[], by rwa [List.append_nil], List.forall_mem_nil _, fun _ => rfl⟩
  cases a with
  | send packet =>
      obtain ⟨call, hpacket, -, -, rfl⟩ := of_step_send hs
      refine hnone ?_
      rw [posts?, Option.toList_some, ← hpacket]
      exact (tells_remembered host ids c call.info).trans (tells_post _ call)
  | sendBegin packet =>
      obtain ⟨call, -, -, -, rfl⟩ := of_step_sendBegin hs
      have h := tells_remembered host ids c call.info
      exact hnone ⟨h.direction, h.connecting, h.packets⟩
  | sendEnd i =>
      obtain ⟨call, hcall, rfl⟩ := of_step_sendEnd hs
      refine hnone ?_
      rw [posts?, hcall]
      have h := tells_post { c with calls := c.calls.eraseIdx i } call
      exact ⟨h.direction, h.connecting, h.packets⟩
  | disconnect =>
      rcases of_step_disconnect hs with rfl | rfl
      · exact hnone (.of_eq rfl rfl rfl)
      · exact hnone (.of_eq rfl rfl rfl)
  | posted =>
      obtain ⟨handler, handlers, -, rfl⟩ := of_step_posted hs
      have h := Tells.of_apart (@runHandler_apart .posted _
        (@runPosted_keeps host handler) { c with posted := handlers }).1
      exact hnone ⟨h.direction, h.connecting, h.packets⟩
  | writeDone op ok now =>
      obtain ⟨-, rfl⟩ := of_step_writeDone hs
      have h := Tells.of_apart (@runHandler_apart .write _
        (@writeCompleted_keeps host op ok now)
        { c with writes := c.writes.erase op }).1
      exact hnone ⟨h.direction, h.connecting, h.packets⟩
  | readDone op ok now =>
      have hesc := (of_step hs).1
      cases ok with
      | false =>
          obtain ⟨-, msg, rfl⟩ := of_step_readFailed hs
          exact hnone (.of_eq rfl rfl rfl)
      | true =>
          have hmem := (of_step_readDone hs).1
          have hlen := wants_le_of_readDone hs
          cases op with
          | header =>
              rw [step_headerRead hesc hmem hlen, Option.some.injEq] at hs
              split at hs
              · obtain ⟨own, htells, hown⟩ :=
                  @tells_filed host ids (headerArrived c) now
                rw [← hs]
                exact ⟨own, ⟨htells.direction, htells.connecting,
                  htells.packets⟩, hown⟩
              · exact hnone (by rw [← hs]; exact .of_eq rfl rfl rfl)
          | body n =>
              rw [step_bodyRead hesc hmem hlen, Option.some.injEq] at hs
              split at hs
              · exact hnone (by rw [← hs]; exact .of_eq rfl rfl rfl)
              · obtain ⟨own, htells, hown⟩ :=
                  @tells_filed host ids (bodyArrived n c) now
                rw [← hs]
                exact ⟨own, ⟨htells.direction, htells.connecting,
                  htells.packets⟩, hown⟩
  | connectDone ok leftOpen =>
      have h := (of_step_connectDone hs).1
      rw [hconn] at h
      cases h

-- ================================================================== runs

/-- What a server sends in a run are the packets of its `Send`s, in the
order of their posts. -/
theorem sent_run {acts : List Action} (hconn : c.connecting = false)
    (hdir : c.mDirection = .toClient)
    (hrun : Lts.run (step host ids) c acts = some c') :
    c'.packets = c.packets ++ postsOf host ids c acts := by
  refine Lts.run_trace
    (fun c => c.connecting = false ∧ c.mDirection = .toClient) packets ?_
    ⟨hconn, hdir⟩ hrun
  rintro c a c' ⟨hconn, hdir⟩ hs
  obtain ⟨own, htells, -, hnone⟩ := tells_step hconn hs
  rw [hnone hdir, List.append_nil] at htells
  exact ⟨⟨htells.connecting.trans hconn, htells.direction.trans hdir⟩,
    htells.packets⟩

/-- Two packets, the first begun first and posted last. -/
example : (postsOf .little ⟨1, 2⟩ (started 0 [] 0)
    [.sendBegin (Ping.toPacket .little 1 ⟨7⟩),
      .send (Ping.toPacket .little 3 ⟨8⟩), .sendEnd 0]).map (·.id)
      = [3, 1] := by
  decide +kernel

/-- So it is at either end with the packets that are no KeepAlives. -/
theorem sent_run_apart {acts : List Action} (hconn : c.connecting = false)
    (hrun : Lts.run (step host ids) c acts = some c') :
    c'.packets.filter (·.id ≠ ids.keepAlive)
      = c.packets.filter (·.id ≠ ids.keepAlive)
        ++ Lts.trace (step host ids) (fun c a =>
          (posts? c a).toList.filter (·.id ≠ ids.keepAlive)) c acts := by
  refine Lts.run_trace (fun c => c.connecting = false)
    (fun c => c.packets.filter (·.id ≠ ids.keepAlive)) ?_ hconn hrun
  intro c a c' hconn hs
  obtain ⟨own, htells, hown, -⟩ := tells_step hconn hs
  refine ⟨htells.connecting.trans hconn, ?_⟩
  have hnone : own.filter (·.id ≠ ids.keepAlive) = [] := by
    rw [List.filter_eq_nil_iff]
    intro p hp
    simp [hown p hp]
  rw [htells.packets, List.filter_append, List.filter_append, hnone,
    List.append_nil]

/-- What a server has put on the wire, once all is written, splits into
the packets of the run's `Send`s, in the order of their posts and each
with its body, where all bodies fit the header. -/
theorem stream_tells_posts {c₀ : Connection} {acts : List Action}
    (h₀ : Fresh host c₀) (hdir : c₀.mDirection = .toClient)
    (hnone : c₀.sent = [])
    (hrun : Lts.run (step host ids) c₀ acts = some c) (hd : Drained c)
    (hfit : ∀ packet ∈ postsOf host ids c₀ acts,
      (bodyOf packet).length ≤ 65535) :
    (frames.split c.handed).1.map found
        = (postsOf host ids c₀ acts).map
          (fun packet => ((packet.id, PacketFlags.none), bodyOf packet))
      ∧ (frames.split c.handed).2 = [] := by
  have hpackets := sent_run h₀.connecting hdir hrun
  rw [packets, packets, hnone, List.map_nil, List.nil_append] at hpackets
  obtain ⟨hhanded, hp⟩ := handed_of_drained h₀ hrun hd
  obtain ⟨hsplit, hrest⟩ := (split_wire_iff hp).mpr fun call hcall =>
    hfit call.packet (hpackets ▸ List.mem_map_of_mem hcall)
  rw [hhanded]
  refine ⟨?_, hrest⟩
  rw [hsplit, ← hpackets, List.map_map]
  rfl

end Connection

end AWEnginePacket
