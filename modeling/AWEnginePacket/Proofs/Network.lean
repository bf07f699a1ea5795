/-
A server serves each client as if it had no other.

Every connection that the server has accepted is a link of its own: where
it stands is where a run of `Link` leads, with events of its own two ends
and nothing else (`attached_run`). So what holds of every link holds of
every connection of a server, whatever the others do and however the
loops over `m_Connections` interleave with the io thread.

What the connections share besides `m_IoContext` is the queue of received
messages, and what `Update()` takes from it.
-/
import AWEnginePacket.Model.Network
import AWEnginePacket.Proofs.Leaks
import AWEnginePacket.Proofs.Link
import AWEnginePacket.Proofs.Service

namespace AWEnginePacket

open Endian (ByteOrder)

namespace Link

variable {host : Side → ByteOrder} {ids : Side → PacketIDs} {l : Link}

/-- A link is its two ends and what has arrived. -/
theorem eq_of_ends {l' : Link} (hserver : l.conn .server = l'.conn .server)
    (hclient : l.conn .client = l'.conn .client)
    (harrived : l.arrived = l'.arrived) : l = l' := by
  obtain ⟨conn, arrived⟩ := l
  obtain ⟨conn', arrived'⟩ := l'
  obtain rfl : arrived = arrived' := harrived
  have hconn : conn = conn' := by
    funext side
    cases side with
    | server => exact hserver
    | client => exact hclient
  rw [hconn]

end Link

namespace Service

variable {host : ByteOrder} {ids : PacketIDs} {s s' : Service} {a : Action}

/-- Only an accept lets somebody in. -/
theorem seen_move (hmove : Move host ids s a s') {k : Nat}
    (hk : some k ∈ s'.seen) :
    some k ∈ s.seen ∨ Network.accepts a = true := by
  cases hmove with
  | @approves incoming now hidle =>
      rcases List.mem_cons.mp
        ((seen_approved incoming now s).mem_iff.mp hk) with hk | hk
      · exact .inr rfl
      · exact .inl hk
  | @ends loop i b ht hi =>
      refine .inl ?_
      rw [seen, filter_erased] at hk
      exact hk
  | @drops loop i b p ht hi hv =>
      refine .inl ?_
      cases p with
      | none =>
          rcases List.mem_append.mp hk with hk | hk
          · exact List.mem_append_left _
              ((Slots.sublist_reset _ _).subset hk)
          · rcases List.mem_append.mp hk with hk | hk
            · exact List.mem_append_right _ hk
            · cases List.mem_singleton.mp hk
      | some j => exact (seen_drop hi).mem_iff.mp hk
  | _ => exact .inl hk

/-- Where one connection has had an event, so has every other or it has
not changed. -/
theorem connection_update {j k : Nat} {b : Connection.Action}
    {c : Connection}
    (hstep : k = j → Connection.step host ids b (s.connection j) = some c)
    (hconn : s'.connection = Function.update s.connection j c) :
    s'.connection k = s.connection k
      ∨ ∃ b, Connection.step host ids b (s.connection k)
        = some (s'.connection k) := by
  rw [hconn]
  by_cases hj : k = j
  · subst hj
    rw [Function.update_self]
    exact .inr ⟨b, hstep rfl⟩
  · exact .inl (Function.update_of_ne hj ..)

/-- What a step other than an accept does to a connection. -/
theorem connection_move (hmove : Move host ids s a s')
    (ha : Network.accepts a = false) (k : Nat)
    (hintact : (s.connection k).escaped = none) :
    s'.connection k = s.connection k
      ∨ ∃ b, Connection.step host ids b (s.connection k)
        = some (s'.connection k) := by
  cases hmove with
  | approves hidle => cases ha
  | denies hidle => cases ha
  | handles howns hstep => exact connection_update (fun _ => hstep) rfl
  | @sends packet ignoredClient i j b c ht hsends hrun =>
      have hstep : k = j → Connection.step host ids (.sendBegin packet)
          (s.connection j) = some c := by
        rintro rfl
        exact Connection.step_sendBegin hintact hrun
      exact connection_update hstep rfl
  | posts ht hstep => exact connection_update (fun _ => hstep) rfl
  | _ => exact .inl rfl

/-- As long as the server lives, no exception has left a handler. -/
theorem intact_move (hmove : Move host ids s a s')
    (ha : Network.accepts a = false) (k : Nat)
    (hintact : (s.connection k).escaped = none)
    (hlives : s'.terminated = false) : (s'.connection k).escaped = none := by
  have hupdate {j : Nat} {c : Connection} (hc : k = j → c.escaped = none)
      (hconn : s'.connection = Function.update s.connection j c) :
      (s'.connection k).escaped = none := by
    rw [hconn]
    by_cases hj : k = j
    · subst hj
      rw [Function.update_self]
      exact hc rfl
    · rw [Function.update_of_ne hj]
      exact hintact
  cases hmove with
  | approves hidle => cases ha
  | denies hidle => cases ha
  | @handles j b c howns hstep =>
      refine hupdate (fun _ => ?_) rfl
      simpa [handled] using hlives
  | @sends packet ignoredClient i j b c ht hsends hrun =>
      refine hupdate (fun hj => ?_) rfl
      subst hj
      exact ((Connection.sendBegin_keeps_reading packet).of_ok hrun).2.2.trans
        hintact
  | @posts packet ignoredClient i j b c ht hstep =>
      refine hupdate (fun hj => ?_) rfl
      subst hj
      obtain ⟨call, -, rfl⟩ := Connection.of_step_sendEnd hstep
      exact hintact
  | _ => exact hintact

theorem created_move (hmove : Move host ids s a s') :
    s.created ≤ s'.created := by
  cases hmove with
  | approves hidle => exact Nat.le_succ _
  | denies hidle => exact Nat.le_succ _
  | _ => exact Nat.le_refl _

end Service

namespace Network

variable {host : ByteOrder} {ids : PacketIDs} {clientHost : Nat → ByteOrder}
  {clientIds : Nat → PacketIDs} {n n' : Network} {a : Action} {k j : Nat}
  {l : Link}

-- ================================================================= links

theorem link_setLink_same (n : Network) (k : Nat) (l : Link) :
    (n.setLink k l).link k = l :=
  Link.eq_of_ends (Function.update_self ..) (Function.update_self ..)
    (Function.update_self ..)

theorem link_setLink_of_ne (h : j ≠ k) :
    (n.setLink k l).link j = n.link j :=
  Link.eq_of_ends (Function.update_of_ne h ..) (Function.update_of_ne h ..)
    (Function.update_of_ne h ..)

variable (host ids clientHost clientIds) in
/-- A connection is where a run of its link alone leads. -/
structure Attached (n : Network) (k : Nat) : Prop where
  made : k < n.service.created
  reached : ∃ self initPacket now, self Side.server = k
    ∧ Lts.Reaches (Link.step (sides host clientHost k)
        (sides ids clientIds k)) (Link.start self initPacket now) (n.link k)
  intact : n.service.terminated = false →
    (n.service.connection k).escaped = none

/-- A step of the network that is one of the link, or none. -/
theorem Attached.move (h : Attached host ids clientHost clientIds n k)
    (hmade : n.service.created ≤ n'.service.created)
    (hlink : n'.link k = n.link k
      ∨ ∃ b, Link.step (sides host clientHost k) (sides ids clientIds k) b
          (n.link k) = some (n'.link k))
    (hintact : n'.service.terminated = false →
      (n'.service.connection k).escaped = none) :
    Attached host ids clientHost clientIds n' k := by
  refine ⟨Nat.lt_of_lt_of_le h.made hmade, ?_, hintact⟩
  obtain ⟨self, initPacket, now, hself, hreach⟩ := h.reached
  refine ⟨self, initPacket, now, hself, ?_⟩
  rcases hlink with hlink | ⟨b, hlink⟩
  · rw [hlink]
    exact hreach
  · exact hreach.snoc hlink

/-- Both ends of a link are at work. -/
theorem Attached.joined (h : Attached host ids clientHost clientIds n k) :
    Link.Joined (sides host clientHost k) (sides ids clientIds k)
      (n.link k) := by
  obtain ⟨self, initPacket, now, -, acts, hrun⟩ := h.reached
  exact Link.joined_run hrun

/-- An event of the server's end is a step of the link. -/
theorem Attached.event (h : Attached host ids clientHost clientIds n k)
    {b : Connection.Action} {c : Connection}
    (hs : Connection.step host ids b (n.service.connection k) = some c) :
    Link.step (sides host clientHost k) (sides ids clientIds k)
      (.event .server b) (n.link k) = some ((n.link k).setConn .server c) := by
  refine Link.step_event ?_ hs
  -- the server's end does not connect
  cases b with
  | connectDone ok leftOpen =>
      obtain ⟨fs, rest, hr⟩ := (h.joined.phase .server).reader
      have hconn := (Connection.of_step_connectDone hs).1
      exact absurd (hr.connecting.symm.trans hconn) Bool.false_ne_true
  | _ => rfl

/-- A step of one link. -/
theorem of_linkStep {b : Link.Action}
    (h : linkStep host ids clientHost clientIds k b n = some n') :
    k < n.service.created ∧ ∃ l, Link.step (sides host clientHost k)
        (sides ids clientIds k) b (n.link k) = some l
      ∧ n' = n.setLink k l := by
  unfold linkStep at h
  split at h
  case isFalse => cases h
  case isTrue hk =>
    obtain ⟨l, hl, rfl⟩ := Option.map_eq_some_iff.mp h
    exact ⟨hk, l, hl, rfl⟩

/-- It moves no other. -/
theorem Attached.linkStep {b : Link.Action}
    (h : Attached host ids clientHost clientIds n j)
    (hl : Link.step (sides host clientHost k) (sides ids clientIds k) b
      (n.link k) = some l)
    (hintact : n.service.terminated = false → k = j →
      (l.conn .server).escaped = none) :
    Attached host ids clientHost clientIds (n.setLink k l) j := by
  by_cases hj : j = k
  · subst hj
    refine h.move (Nat.le_refl _) (.inr ⟨b, ?_⟩) fun hlives => ?_
    · rw [link_setLink_same]
      exact hl
    · rw [show (n.setLink j l).service.connection j = l.conn .server from
        Function.update_self ..]
      exact hintact hlives rfl
  · refine h.move (Nat.le_refl _) (.inl (link_setLink_of_ne hj))
      fun hlives => ?_
    rw [show (n.setLink k l).service.connection j = n.service.connection j from
      Function.update_of_ne hj ..]
    exact h.intact hlives

theorem link_welcome_of_ne {service : Service} {initPacket : Option IPacket}
    {now : TimePoint} (hk : k ≠ n.service.created)
    (hconn : service.connection k = n.service.connection k) :
    (n.welcome service initPacket now).link k = n.link k :=
  Link.eq_of_ends hconn (Function.update_of_ne hk ..)
    (Function.update_of_ne hk ..)

/-- A connection begins as a link. -/
theorem attached_welcome {initPacket : Option IPacket}
    {now : Side → TimePoint} :
    Attached host ids clientHost clientIds
      (n.welcome (Service.accept true [] (now .server) n.service) initPacket
        (now .client)) n.service.created := by
  have hconn : (Service.accept true [] (now .server) n.service).connection
      n.service.created
        = Connection.started n.service.created [] (now .server) :=
    Function.update_self ..
  have hpeer : (n.welcome (Service.accept true [] (now .server) n.service)
      initPacket (now .client)).peer n.service.created
        = Effect.after (Connection.connectToServer initPacket)
          (Connection.create 0 .toServer false [] (now .client)) :=
    Function.update_self ..
  have harrived : (n.welcome (Service.accept true [] (now .server) n.service)
      initPacket (now .client)).arrived n.service.created = fun _ => 0 :=
    Function.update_self ..
  refine ⟨Nat.lt_succ_self _, ⟨sides n.service.created (fun _ => 0) 0,
    initPacket, now, rfl, [], ?_⟩, fun _ => ?_⟩
  · exact congrArg some (Link.eq_of_ends hconn.symm hpeer.symm harrived.symm)
  · exact congrArg Connection.escaped hconn

theorem attached_connect
    (h : ∀ k, some k ∈ n.service.seen →
      Attached host ids clientHost clientIds n k)
    {approved : Bool} {initPacket : Option IPacket} {now : Side → TimePoint}
    (hs : step host ids clientHost clientIds
      (.connect approved initPacket now) n = some n')
    (hk : some k ∈ n'.service.seen) :
    Attached host ids clientHost clientIds n' k := by
  obtain ⟨service, hservice, rfl⟩ := Option.map_eq_some_iff.mp hs
  have hlives := Service.lives_of_step hservice
  have hmove := Service.move_of_step hservice
  have hold (hseen : some k ∈ n.service.seen)
      (hmade : service.created = n.service.created + 1)
      (hconn : k ≠ n.service.created →
        service.connection k = n.service.connection k) :
      Attached host ids clientHost clientIds
        (n.welcome service initPacket (now .client)) k := by
    have hne : k ≠ n.service.created := (h k hseen).made.ne
    refine (h k hseen).move (hmade ▸ Nat.le_succ _)
      (.inl (link_welcome_of_ne hne (hconn hne))) fun _ => ?_
    show (service.connection k).escaped = none
    rw [hconn hne]
    exact (h k hseen).intact hlives
  cases hmove with
  | approves hidle =>
      rcases List.mem_cons.mp ((Service.seen_approved [] (now .server)
        n.service).mem_iff.mp hk) with hk | hk
      · injection hk with hk
        subst hk
        exact attached_welcome
      · exact hold hk rfl fun hne => Function.update_of_ne hne ..
  | denies hidle =>
      exact hold hk rfl fun hne => Function.update_of_ne hne ..

/-- An event of the server's end alone. -/
theorem Attached.server (h : Attached host ids clientHost clientIds n k)
    (hpeer : n'.peer = n.peer) (harrived : n'.arrived = n.arrived)
    (hmade : n.service.created ≤ n'.service.created)
    (hconn : n'.service.connection k = n.service.connection k
      ∨ ∃ b, Connection.step host ids b (n.service.connection k)
        = some (n'.service.connection k))
    (hintact : n'.service.terminated = false →
      (n'.service.connection k).escaped = none) :
    Attached host ids clientHost clientIds n' k := by
  refine h.move hmade ?_ hintact
  rcases hconn with hconn | ⟨b, hconn⟩
  · exact .inl (Link.eq_of_ends hconn (congrFun hpeer k)
      (congrFun harrived k))
  · refine .inr ⟨_, (h.event hconn).trans (congrArg some ?_)⟩
    exact Link.eq_of_ends (Link.setConn_same ..) (congrFun hpeer k).symm
      (congrFun harrived k).symm

section ends

variable {host : Side → ByteOrder} {ids : Side → PacketIDs} {l' : Link}

/-- What an event of the server's end does to it. -/
theorem of_event {side : Side} {b : Connection.Action}
    (h : Link.step host ids (.event side b) l = some l') :
    ∃ c, Connection.step (host side) (ids side) b (l.conn side) = some c
      ∧ l' = l.setConn side c := by
  rcases Link.step_cases h with ⟨other, b', c, ha, -, hc, rfl⟩ |
    ⟨other, m, ha, -⟩
  · cases ha
    exact ⟨c, hc, rfl⟩
  · cases ha

/-- An event of the client's end is none of the server's. -/
theorem server_client {b : Connection.Action}
    (h : Link.step host ids (.event .client b) l = some l') :
    l'.conn .server = l.conn .server := by
  obtain ⟨c, -, rfl⟩ := of_event h
  exact Link.setConn_of_ne (by decide)

/-- Nor does it notice that bytes arrive. -/
theorem server_arrive {side : Side} {m : Nat}
    (h : Link.step host ids (.arrive side m) l = some l') :
    ∃ bytes, l'.conn .server = { l.conn .server with incoming := bytes } := by
  rcases Link.step_cases h with ⟨other, b', c, ha, -⟩ |
    ⟨other, m', ha, -, rfl⟩
  · cases ha
  · exact Link.conn_arrive l other m' .server

/-- A `Send` throws to its caller only. -/
theorem send_intact {side : Side} {packet : IPacket}
    (h : Link.step host ids (.event side (.send packet)) l = some l')
    (hintact : (l.conn side).escaped = none) :
    (l'.conn side).escaped = none := by
  obtain ⟨c, hc, rfl⟩ := of_event h
  rw [Link.setConn_same]
  obtain ⟨call, -, -, -, rfl⟩ := Connection.of_step_send hc
  exact (Connection.remembered_escaped call.info).trans hintact

end ends

variable (host ids) in
theorem note_fields (a : Service.Action) (n : Network) :
    (note host ids a n).peer = n.peer
      ∧ (note host ids a n).arrived = n.arrived := by
  cases a <;> exact ⟨rfl, rfl⟩

/-- A step of the server other than an accept. -/
theorem of_server {b : Service.Action}
    (hs : step host ids clientHost clientIds (.server b) n = some n') :
    ∃ service, accepts b = false
      ∧ Service.step host ids b n.service = some service
      ∧ n' = { note host ids b n with service } := by
  unfold step at hs
  dsimp only at hs
  split at hs
  case isTrue => cases hs
  case isFalse hb =>
    obtain ⟨service, hservice, rfl⟩ := Option.map_eq_some_iff.mp hs
    exact ⟨service, by simpa using hb, hservice, rfl⟩

/-- A `Send` to one client. -/
theorem of_send {packet : IPacket}
    (hs : step host ids clientHost clientIds (.send k packet) n = some n') :
    ∃ l, n.service.task.isIdle = true ∧ n.service.terminated = false
      ∧ k < n.service.created
      ∧ Link.step (sides host clientHost k) (sides ids clientIds k)
          (.event .server (.send packet)) (n.link k) = some l
      ∧ n' = { n.setLink k l with said := n.said ++ [.client k packet] } := by
  unfold step at hs
  dsimp only at hs
  split at hs
  case isFalse => cases hs
  case isTrue hguard =>
    obtain ⟨n₁, hlink, rfl⟩ := Option.map_eq_some_iff.mp hs
    obtain ⟨hk, l, hl, rfl⟩ := of_linkStep hlink
    simp only [Bool.and_eq_true, Bool.not_eq_true'] at hguard
    exact ⟨l, hguard.1.1, hguard.2, hk, hl, rfl⟩

/-- Every step of the network keeps every connection on its own link. -/
theorem attached_step
    (h : ∀ k, some k ∈ n.service.seen →
      Attached host ids clientHost clientIds n k)
    (hs : step host ids clientHost clientIds a n = some n')
    (hk : some k ∈ n'.service.seen) :
    Attached host ids clientHost clientIds n' k := by
  cases a with
  | connect approved initPacket now => exact attached_connect h hs hk
  | server b =>
      obtain ⟨service, hb, hservice, rfl⟩ := of_server hs
      have hlives := Service.lives_of_step hservice
      have hmove := Service.move_of_step hservice
      have hseen : some k ∈ n.service.seen := by
        rcases Service.seen_move hmove hk with hk | hacc
        · exact hk
        · exact absurd (hb.symm.trans hacc) Bool.false_ne_true
      have hatt := h k hseen
      obtain ⟨hpeer, harrived⟩ := note_fields host ids b n
      exact hatt.server hpeer harrived (Service.created_move hmove)
        (Service.connection_move hmove hb k (hatt.intact hlives))
        (Service.intact_move hmove hb k (hatt.intact hlives))
  | send j packet =>
      obtain ⟨l, -, hlives, -, hl, rfl⟩ := of_send hs
      have hatt := h k hk
      have hescaped (hj : j = k) : (l.conn .server).escaped = none := by
        subst hj
        exact send_intact hl (hatt.intact hlives)
      have hmoved := hatt.linkStep hl fun _ => hescaped
      exact hmoved.move (Nat.le_refl _) (.inl rfl) hmoved.intact
  | client j b =>
      obtain ⟨-, l, hl, rfl⟩ := of_linkStep hs
      refine (h k hk).linkStep hl fun hlives hj => ?_
      subst hj
      rw [server_client hl]
      exact (h j hk).intact hlives
  | arrive j side m =>
      obtain ⟨-, l, hl, rfl⟩ := of_linkStep hs
      refine (h k hk).linkStep hl fun hlives hj => ?_
      subst hj
      obtain ⟨bytes, hconn⟩ := server_arrive hl
      rw [hconn]
      exact (h j hk).intact hlives

theorem attached_run {acts : List Action}
    (hrun : Lts.run (step host ids clientHost clientIds) start acts = some n)
    (hk : some k ∈ n.service.seen) :
    Attached host ids clientHost clientIds n k := by
  have hall : ∀ k, some k ∈ n.service.seen →
      Attached host ids clientHost clientIds n k := by
    refine Lts.run_invariant (fun n => ∀ k, some k ∈ n.service.seen →
      Attached host ids clientHost clientIds n k) ?_ ?_ hrun
    · intro n a n' h hs k hk
      exact attached_step h hs hk
    · intro k hk
      cases hk
  exact hall k hk

/-- Every connection that a server has accepted is where a run of that
one link leads: its two ends have had events of their own, and the
network has brought the bytes of one to the other. -/
theorem serves_each_alone (acts : List Action)
    (hrun : Lts.run (step host ids clientHost clientIds) start acts = some n)
    (hk : some k ∈ n.service.seen) :
    ∃ self initPacket now, self Side.server = k
      ∧ Lts.Reaches (Link.step (sides host clientHost k)
          (sides ids clientIds k)) (Link.start self initPacket now)
          (n.link k) :=
  (attached_run hrun hk).reached

/-- Two clients connect. The second one sends a packet while the server
sends one to both of them; the server gets that packet, and the first
client the server's. -/
def conversing : List Action :=
  [.connect true none fun _ => 0, .connect true none fun _ => 0,
    .client 0 (.connectDone true true), .client 1 (.connectDone true true),
    .client 1 (.send (Ping.toPacket .little 2 ⟨9⟩)),
    .server (.sendAllClients (Ping.toPacket .little 3 ⟨7⟩) none),
    .server .next, .server .send, .client 1 .posted, .server .post,
    .server .next, .server .send, .client 1 (.writeDone .header true 1),
    .server (.io 0 .posted), .client 1 (.writeDone .body true 1),
    .server .post, .server .next, .arrive 1 .server 12,
    .server (.io 1 (.readDone .header true 2)),
    .server (.io 0 (.writeDone .header true 2)),
    .server (.io 1 (.readDone (.body 8) true 2)), .server .popMessage,
    .server (.io 0 (.writeDone .body true 2)), .arrive 0 .client 12,
    .client 0 (.readDone .header true 3),
    .client 0 (.readDone (.body 8) true 3)]

theorem conversing_run :
    ∃ n, Lts.run (step .little ⟨1, 5⟩ (fun _ => .little) fun _ => ⟨1, 5⟩)
        start conversing = some n
      ∧ n.service.seen = [some 0, some 1]
      ∧ n.popped = [⟨some 1, ⟨⟨2, 0, 8⟩, ⟨[9, 0, 0, 0, 0, 0, 0, 0], 0⟩⟩⟩]
      ∧ (n.peer 0).mMessagesIn
        = [⟨none, ⟨⟨3, 0, 8⟩, ⟨[7, 0, 0, 0, 0, 0, 0, 0], 0⟩⟩⟩]
      ∧ (∀ call ∈ (n.peer 1).sent,
          Connection.bodyOf call.packet = [9, 0, 0, 0, 0, 0, 0, 0])
      ∧ ∀ call ∈ (n.service.connection 0).sent,
          Connection.bodyOf call.packet = [7, 0, 0, 0, 0, 0, 0, 0] := by
  have hend : (Lts.run (step .little ⟨1, 5⟩ (fun _ => .little)
      fun _ => ⟨1, 5⟩) start conversing).map (fun n => decide
        (n.service.seen = [some 0, some 1]
          ∧ n.popped = [⟨some 1, ⟨⟨2, 0, 8⟩, ⟨[9, 0, 0, 0, 0, 0, 0, 0], 0⟩⟩⟩]
          ∧ (n.peer 0).mMessagesIn
            = [⟨none, ⟨⟨3, 0, 8⟩, ⟨[7, 0, 0, 0, 0, 0, 0, 0], 0⟩⟩⟩]
          ∧ (∀ call ∈ (n.peer 1).sent,
              Connection.bodyOf call.packet = [9, 0, 0, 0, 0, 0, 0, 0])
          ∧ ∀ call ∈ (n.service.connection 0).sent,
              Connection.bodyOf call.packet = [7, 0, 0, 0, 0, 0, 0, 0]))
      = some true := by
    decide +kernel
  obtain ⟨n, hrun, hn⟩ := Option.map_eq_some_iff.mp hend
  exact ⟨n, hrun, of_decide_eq_true hn⟩

/-- The first of two clients. -/
theorem serves_each_alone_two :
    ∃ n self initPacket now, Lts.run (step .little ⟨1, 5⟩
        (fun _ => .little) fun _ => ⟨1, 5⟩) start conversing = some n
      ∧ (n.peer 0).mMessagesIn
        = [⟨none, ⟨⟨3, 0, 8⟩, ⟨[7, 0, 0, 0, 0, 0, 0, 0], 0⟩⟩⟩]
      ∧ self Side.server = 0
      ∧ Lts.Reaches (Link.step (sides .little (fun _ => .little) 0)
          (sides ⟨1, 5⟩ (fun _ => ⟨1, 5⟩) 0))
          (Link.start self initPacket now) (n.link 0) := by
  obtain ⟨n, hrun, hseen, -, hmsgs, -⟩ := conversing_run
  obtain ⟨self, initPacket, now, hself, hreach⟩ :=
    @serves_each_alone _ _ _ _ n 0 conversing hrun (by rw [hseen]; simp)
  exact ⟨n, self, initPacket, now, hrun, hmsgs, hself, hreach⟩

end Network

end AWEnginePacket
