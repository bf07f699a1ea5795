/-
The one queue that all the connections of a server push into.

A message knows its connection, so the queue can be taken apart again:
what `Update()` has taken of one connection's messages, and what is still
in the queue of them, is what that connection has pushed, in the order in
which it did (`sorted_run`). The other connections' messages come in
between, and nothing else. With what holds of each link alone this gives
`pops_what_clients_send`: the server is given, of each client, the
messages it sent, from the first one on and each of them once.
-/
import AWEnginePacket.Proofs.Network

namespace AWEnginePacket

open Endian (ByteOrder)

namespace Inbox

/-- More frames give more messages, all to the same owner. -/
theorem of_append (owner : Option Nat) (fs gs : List WireFrame) :
    ∃ new, (of owner (fs ++ gs)).messages = (of owner fs).messages ++ new
      ∧ ∀ m ∈ new, m.first = owner := by
  induction gs using List.reverseRecOn with
  | nil => exact ⟨[], by simp, by simp⟩
  | append_singleton gs g ih =>
      obtain ⟨new, hnew, hown⟩ := ih
      rw [← List.append_assoc, of_append_singleton]
      obtain ⟨last, hlast, hfirst⟩ : ∃ m,
          ((of owner (fs ++ gs)).take owner g).messages
            = (of owner (fs ++ gs)).messages ++ [m] ∧ m.first = owner :=
        ⟨_, rfl, rfl⟩
      refine ⟨new ++ [last], ?_, fun m hm => ?_⟩
      · rw [hlast, hnew, List.append_assoc]
      · rcases List.mem_append.mp hm with hm | hm
        · exact hown m hm
        · rw [List.mem_singleton.mp hm, hfirst]

end Inbox

namespace Connection

variable {host : ByteOrder} {ids : PacketIDs} {c c' : Connection}
  {d : PacketDirection} {stream rest : List UInt8} {fs : List WireFrame}
  {a : Action}

/-- Whatever happens at a connection, it pushes its own messages behind
those that it has pushed. -/
theorem pushes_own (hr : Reader ids d stream c fs rest)
    (hs : step host ids a c = some c') :
    ∃ new, c'.mMessagesIn = c.mMessagesIn ++ new
      ∧ ∀ m ∈ new, m.first = c.owner := by
  obtain ⟨fs', rest', hr', gs, rfl⟩ := reader_step hr hs
  have howner : c'.owner = c.owner := by
    rw [owner, owner, hr'.direction, hr.direction, self_step hs]
  obtain ⟨new, hnew, hown⟩ := Inbox.of_append c.owner fs gs
  refine ⟨new, ?_, hown⟩
  rw [hr'.messages, hr.messages, howner, hnew]

/-- A `Send` has nothing to do with that. -/
theorem mMessagesIn_of_readSide (h : c'.readSide = c.readSide) :
    c'.mMessagesIn = c.mMessagesIn := by
  simp only [readSide, Prod.mk.injEq] at h
  exact h.2.2.2.1

end Connection

namespace Service

variable {host : ByteOrder} {ids : PacketIDs} {s s' : Service} {a : Action}

/-- Who was let in stays known. -/
theorem seen_mono (hmove : Move host ids s a s') {k : Nat}
    (hk : some k ∈ s.seen) : some k ∈ s'.seen := by
  cases hmove with
  | @approves incoming now hidle =>
      exact (seen_approved incoming now s).mem_iff.mpr
        (List.mem_cons_of_mem _ hk)
  | @ends loop i b ht hi =>
      rw [seen, filter_erased]
      exact hk
  | @drops loop i b p ht hi hv =>
      cases p with
      | none =>
          rcases List.mem_append.mp hk with hk | hk
          · refine List.mem_append_left _ ?_
            obtain ⟨hmem, -⟩ := List.mem_filter.mp hk
            refine List.mem_filter.mpr ⟨?_, rfl⟩
            obtain ⟨m, hm⟩ := List.getElem?_of_mem hmem
            have hne : i ≠ m := by
              rintro rfl
              rw [hi] at hm
              cases hm
            exact List.mem_of_getElem? ((List.getElem?_set_ne hne).trans hm)
          · exact List.mem_append_right _ (List.mem_append_left _ hk)
      | some j => exact (seen_drop hi).mem_iff.mpr hk
  | _ => exact hk

end Service

namespace Network

variable {host : ByteOrder} {ids : PacketIDs} {clientHost : Nat → ByteOrder}
  {clientIds : Nat → PacketIDs} {n n' : Network} {a : Action} {k j : Nat}

/-- The messages of one connection among those taken and those in the
queue. -/
def tally (n : Network) (k : Nat) : List OwnedMessage :=
  (n.popped ++ n.service.mMessageInQueue).filter (·.first = some k)

/-- The queue, taken apart. -/
structure Tallied (n : Network) : Prop where
  messages : ∀ k, n.tally k = (n.service.connection k).mMessagesIn
  owners : ∀ k, (n.service.connection k).mMessagesIn ≠ [] →
    some k ∈ n.service.seen
  fresh : ∀ k, n.service.created ≤ k →
    (n.service.connection k).mMessagesIn = []

/-- Nothing is pushed, and what is taken is noted. -/
theorem Tallied.of_same (h : Tallied n)
    (hboth : n'.popped ++ n'.service.mMessageInQueue
      = n.popped ++ n.service.mMessageInQueue)
    (hseen : ∀ k, some k ∈ n.service.seen → some k ∈ n'.service.seen)
    (hmade : n.service.created ≤ n'.service.created)
    (hmsgs : ∀ k, (n'.service.connection k).mMessagesIn
      = (n.service.connection k).mMessagesIn) : Tallied n' := by
  refine ⟨fun k => ?_, fun k hne => ?_, fun k hk => ?_⟩
  · rw [tally, hboth, hmsgs]
    exact h.messages k
  · rw [hmsgs] at hne
    exact hseen k (h.owners k hne)
  · rw [hmsgs]
    exact h.fresh k (hmade.trans hk)

/-- A connection pushes messages of its own. -/
theorem Tallied.push (h : Tallied n) {c : Connection}
    {new : List OwnedMessage} (hk : some k ∈ n.service.seen)
    (hmade : k < n.service.created)
    (hnew : c.mMessagesIn = (n.service.connection k).mMessagesIn ++ new)
    (hown : ∀ m ∈ new, m.first = some k) :
    Tallied { n with service := Service.handled k c n.service } := by
  have hqueue : (Service.handled k c n.service).mMessageInQueue
      = n.service.mMessageInQueue ++ new := by
    show n.service.mMessageInQueue ++ c.mMessagesIn.drop _ = _
    rw [hnew, List.drop_left]
  refine ⟨fun j => ?_, fun j hne => ?_, fun j hj => ?_⟩
  · show (n.popped ++ (Service.handled k c n.service).mMessageInQueue).filter _
      = (Function.update n.service.connection k c j).mMessagesIn
    have hold := h.messages j
    rw [hqueue, ← List.append_assoc, List.filter_append]
    rw [tally] at hold
    rw [hold]
    by_cases hj : j = k
    · subst hj
      rw [Function.update_self, hnew, List.filter_eq_self.mpr]
      intro m hm
      exact decide_eq_true (hown m hm)
    · rw [Function.update_of_ne hj, List.filter_eq_nil_iff.mpr,
        List.append_nil]
      intro m hm hfirst
      have hsame := (hown m hm).symm.trans (of_decide_eq_true hfirst)
      injection hsame with hsame
      exact hj hsame.symm
  · by_cases hj : j = k
    · exact hj ▸ hk
    · have hne' : (Function.update n.service.connection k c j).mMessagesIn
          ≠ [] := hne
      rw [Function.update_of_ne hj] at hne'
      exact h.owners j hne'
  · have hne : j ≠ k := by
      rintro rfl
      have hj' : n.service.created ≤ j := hj
      omega
    show (Function.update n.service.connection k c j).mMessagesIn = []
    rw [Function.update_of_ne hne]
    exact h.fresh j hj

/-- A connection stays the object it is. -/
theorem Attached.self (h : Attached host ids clientHost clientIds n k) :
    (n.service.connection k).self = k := by
  obtain ⟨self, initPacket, now, rfl, acts, hrun⟩ := h.reached
  show ((n.link _).conn .server).self = self .server
  refine Lts.run_invariant (fun l : Link =>
    (l.conn .server).self = self .server) ?_ rfl hrun
  intro l b l' hself hs
  rcases Link.step_cases hs with ⟨side, b', c, -, -, hc, rfl⟩ |
    ⟨side, m, -, -, rfl⟩
  · by_cases hside : side = .server
    · subst hside
      rw [Link.setConn_same, Connection.self_step hc]
      exact hself
    · rw [Link.setConn_of_ne (Ne.symm hside)]
      exact hself
  · obtain ⟨bytes, hconn⟩ := Link.conn_arrive l side m .server
    rw [hconn]
    exact hself

/-- Whoever can be called has been let in. -/
theorem Tallied.seen (h : Tallied n) (howns : n.service.owns k = true) :
    some k ∈ n.service.seen := by
  rcases (Service.owns_iff n.service k).mp howns with hk | ⟨m, hm, hfirst⟩
  · exact List.mem_append_left _ (List.mem_filter.mpr ⟨hk, rfl⟩)
  · refine h.owners k ?_
    rw [← h.messages k]
    refine List.ne_nil_of_mem (a := m) (List.mem_filter.mpr ⟨?_, ?_⟩)
    · exact List.mem_append_right _ hm
    · exact decide_eq_true hfirst

/-- A step of the server. -/
theorem Tallied.server (h : Tallied n)
    (hatt : ∀ k, some k ∈ n.service.seen →
      Attached host ids clientHost clientIds n k)
    {b : Service.Action} {service : Service} (hb : accepts b = false)
    (hmove : Service.Move host ids n.service b service) :
    Tallied { note host ids b n with service } := by
  have hseen : ∀ k, some k ∈ n.service.seen → some k ∈ service.seen :=
    fun k => Service.seen_mono hmove
  have hmade := Service.created_move hmove
  cases hmove with
  | approves hidle => cases hb
  | denies hidle => cases hb
  | @handles k b c howns hstep =>
      have hk := h.seen howns
      have hreads := hatt k hk
      obtain ⟨fs, rest, hr⟩ := (hreads.joined.phase .server).reader
      obtain ⟨new, hnew, hown⟩ := Connection.pushes_own hr hstep
      refine h.push hk hreads.made hnew fun m hm => ?_
      have howner : Connection.owner ((n.link k).conn .server) = some k := by
        rw [Connection.owner, if_pos hr.direction]
        exact congrArg some hreads.self
      exact (hown m hm).trans howner
  | @pops m rest hqueue =>
      refine h.of_same ?_ hseen hmade fun _ => rfl
      show (n.popped ++ n.service.mMessageInQueue.head?.toList) ++ rest = _
      rw [hqueue, List.append_assoc]
      rfl
  | @sends packet ignoredClient i j b c ht hsends hrun =>
      refine h.of_same rfl hseen hmade fun k => ?_
      by_cases hk : k = j
      · subst hk
        show (Function.update n.service.connection k c k).mMessagesIn = _
        rw [Function.update_self]
        exact Connection.mMessagesIn_of_readSide
          ((Connection.sendBegin_keeps_reading packet).of_ok hrun).1
      · exact congrArg Connection.mMessagesIn (Function.update_of_ne hk ..)
  | @posts packet ignoredClient i j b c ht hstep =>
      refine h.of_same rfl hseen hmade fun k => ?_
      by_cases hk : k = j
      · subst hk
        show (Function.update n.service.connection k c k).mMessagesIn = _
        rw [Function.update_self]
        obtain ⟨call, -, rfl⟩ := Connection.of_step_sendEnd hstep
        rfl
      · exact congrArg Connection.mMessagesIn (Function.update_of_ne hk ..)
  | _ => exact h.of_same rfl hseen hmade fun _ => rfl

/-- A step of one link that leaves the server's messages alone. -/
theorem Tallied.setLink (h : Tallied n) {l : Link}
    (hmsgs : (l.conn .server).mMessagesIn
      = (n.service.connection k).mMessagesIn) : Tallied (n.setLink k l) := by
  refine h.of_same rfl (fun _ hk => hk) (Nat.le_refl _) fun j => ?_
  by_cases hj : j = k
  · subst hj
    show (Function.update n.service.connection j _ j).mMessagesIn = _
    rw [Function.update_self]
    exact hmsgs
  · exact congrArg Connection.mMessagesIn (Function.update_of_ne hj ..)

theorem tallied_step
    (hatt : ∀ k, some k ∈ n.service.seen →
      Attached host ids clientHost clientIds n k) (h : Tallied n)
    (hs : step host ids clientHost clientIds a n = some n') :
    Tallied n' := by
  cases a with
  | connect approved initPacket now =>
      obtain ⟨service, hservice, rfl⟩ := Option.map_eq_some_iff.mp hs
      have hmove := Service.move_of_step hservice
      have hseen : ∀ k, some k ∈ n.service.seen → some k ∈ service.seen :=
        fun k => Service.seen_mono hmove
      have hnew {c : Connection} (hc : c.mMessagesIn = []) (k : Nat) :
          (Function.update n.service.connection n.service.created c
            k).mMessagesIn = (n.service.connection k).mMessagesIn := by
        by_cases hk : k = n.service.created
        · subst hk
          rw [Function.update_self, hc]
          exact (h.fresh _ (Nat.le_refl _)).symm
        · rw [Function.update_of_ne hk]
      have hmade := Service.created_move hmove
      cases hmove with
      | approves hidle =>
          exact h.of_same rfl hseen hmade (hnew rfl)
      | denies hidle =>
          exact h.of_same rfl hseen hmade (hnew rfl)
  | server b =>
      obtain ⟨service, hb, hservice, rfl⟩ := of_server hs
      exact h.server hatt hb (Service.move_of_step hservice)
  | send j packet =>
      obtain ⟨l, -, -, -, hl, rfl⟩ := of_send hs
      obtain ⟨c, hc, rfl⟩ := of_event hl
      obtain ⟨call, -, -, -, rfl⟩ := Connection.of_step_send hc
      have hside := (@Connection.remembered_readFrame host ids
        (n.service.connection j) call.info).1
      refine (h.setLink (k := j) ?_).of_same rfl (fun _ hk => hk)
        (Nat.le_refl _) fun _ => rfl
      rw [Link.setConn_same]
      exact Connection.mMessagesIn_of_readSide hside
  | client j b =>
      obtain ⟨-, l, hl, rfl⟩ := of_linkStep hs
      refine h.setLink ?_
      rw [server_client hl]
      rfl
  | arrive j side m =>
      obtain ⟨-, l, hl, rfl⟩ := of_linkStep hs
      obtain ⟨bytes, hconn⟩ := server_arrive hl
      refine h.setLink ?_
      rw [hconn]
      rfl

variable (host ids clientHost clientIds) in
/-- Every connection on its own link, and the queue taken apart. -/
structure Sorted (n : Network) : Prop extends Tallied n where
  attached : ∀ k, some k ∈ n.service.seen →
    Attached host ids clientHost clientIds n k

theorem sorted_start : Sorted host ids clientHost clientIds start := by
  refine ⟨⟨fun _ => rfl, fun k hne => ?_, fun _ _ => rfl⟩, fun k hk => ?_⟩
  · exact absurd rfl hne
  · cases hk

theorem sorted_step (h : Sorted host ids clientHost clientIds n)
    (hs : step host ids clientHost clientIds a n = some n') :
    Sorted host ids clientHost clientIds n' :=
  ⟨tallied_step h.attached h.toTallied hs,
    fun _ hk => attached_step h.attached hs hk⟩

theorem sorted_run {acts : List Action}
    (hrun : Lts.run (step host ids clientHost clientIds) start acts
      = some n) : Sorted host ids clientHost clientIds n :=
  Lts.run_invariant (Sorted host ids clientHost clientIds)
    (fun _ _ _ h hs => sorted_step h hs) sorted_start hrun

-- =============================================================== results

/-- Of each client, `Update()` is given the messages it sent, in their
order, none left out and none twice; those it has not been given yet are
in the queue. The `i`-th is the `i`-th that the client sent, with its body
where it has one. -/
theorem pops_what_clients_send (acts : List Action)
    (hrun : Lts.run (step host ids clientHost clientIds) start acts = some n)
    (k : Nat)
    (hfit : ∀ call ∈ (n.peer k).sent,
      (Connection.bodyOf call.packet).length ≤ 65535) :
    n.popped.filter (·.first = some k)
        ++ n.service.mMessageInQueue.filter (·.first = some k)
        = (n.service.connection k).mMessagesIn
      ∧ ∀ (i : Nat) (m : OwnedMessage),
        (n.popped.filter (·.first = some k))[i]? = some m →
        ∃ call, (n.peer k).sent[i]? = some call
          ∧ m.second.header = ⟨call.packet.id, PacketFlags.none,
              UInt16.ofNat (Connection.bodyOf call.packet).length⟩
          ∧ (Connection.bodyOf call.packet ≠ [] →
              m.second.body.bytes = Connection.bodyOf call.packet) := by
  have htally := sorted_run hrun
  have hparts := htally.messages k
  rw [tally, List.filter_append] at hparts
  refine ⟨hparts, fun i m hm => ?_⟩
  have hin : (n.service.connection k).mMessagesIn[i]? = some m := by
    obtain ⟨hi, -⟩ := List.getElem?_eq_some_iff.mp hm
    rw [← hparts, List.getElem?_append_left hi]
    exact hm
  have hk : some k ∈ n.service.seen := by
    refine htally.owners k fun hnil => ?_
    rw [hnil] at hin
    cases hin
  obtain ⟨call, hcall, hheader, hbody⟩ := @Link.Joined.message _ _ _ .server
    (htally.attached k hk).joined hfit i m hin
  exact ⟨call, hcall, hheader, fun hne => hbody.mpr (.inl hne)⟩

/-- What the second of two clients has sent. -/
theorem pops_what_clients_send_two :
    ∃ n call m, Lts.run (step .little ⟨1, 5⟩ (fun _ => .little)
        fun _ => ⟨1, 5⟩) start conversing = some n
      ∧ n.popped = [m] ∧ (n.peer 1).sent[0]? = some call
      ∧ m.second.header = ⟨call.packet.id, PacketFlags.none, 8⟩
      ∧ m.second.body.bytes = Connection.bodyOf call.packet := by
  obtain ⟨n, hrun, -, hpopped, -, hbody, -⟩ := conversing_run
  have hfit : ∀ call ∈ (n.peer 1).sent,
      (Connection.bodyOf call.packet).length ≤ 65535 := by
    intro call hcall
    rw [hbody call hcall]
    decide
  obtain ⟨call, hcall, hheader, hown⟩ :=
    (pops_what_clients_send conversing hrun 1 hfit).2 0
      ⟨some 1, ⟨⟨2, 0, 8⟩, ⟨[9, 0, 0, 0, 0, 0, 0, 0], 0⟩⟩⟩
      (by rw [hpopped]; rfl)
  have hbytes := hbody call (List.mem_of_getElem? hcall)
  rw [hbytes] at hheader hown
  refine ⟨n, call, _, hrun, hpopped, hcall, hheader, ?_⟩
  rw [hbytes]
  exact hown (by decide)

end Network

end AWEnginePacket
