/-
What a server's program has announced arrives.

Of one client's connection only so many steps are left to take, unless
somebody sends on it: whatever the other clients do meanwhile, however
many come and go, and whatever `Update()` takes from the queue. Once they
have been taken the client has received all that was said to it or to all
since it was accepted, if the bodies fit (`everything_arrives`).

# Steps

`concerns k` are the steps of the `k`-th connection, of its client and of
the network between the two. They are onward steps if they are neither a
call nor a failure; the steps of others may be anything, as long as no
loop over `m_Connections` begins (`Calm`). Each step of the connection
lowers the effort of its link, and the others do not touch the link
(`calm_step`).
-/
import AWEnginePacket.Proofs.Announcing
import AWEnginePacket.Proofs.Quiescence

namespace AWEnginePacket

open Endian (ByteOrder)

namespace Connection

variable {host : ByteOrder} {ids : PacketIDs} {c : Connection}
  {heard : List UInt8}

/-- A client that is open and has not thrown is reading: there is nothing
that stalls it. -/
theorem Phase.client_reads (h : Phase host ids heard .toServer c)
    (hw : Link.Works c) : c.reads ≠ [] := by
  intro hnone
  cases h with
  | dialing self initPacket now => cases hw.isOpen
  | talking _ _ hr hp =>
      obtain ⟨fs, rest, hr⟩ := hr
      obtain ⟨f, rest', -, hv⟩ := hr.idle hnone hw.isOpen hw.escaped
      rw [hr.direction, verdict] at hv
      split at hv
      · cases hv
      · split at hv
        · cases hv
        · rw [if_neg (by simp)] at hv
          cases hv
  | failed _ hesc =>
      rw [hw.escaped] at hesc
      cases hesc

end Connection

/-- A handler of a connection with an entry can run. -/
theorem Service.can_handle {host : ByteOrder} {ids : PacketIDs} {s : Service}
    {k : Nat} {b : Connection.Action} {c : Connection}
    (hk : some k ∈ s.mConnections) (hlives : s.terminated = false)
    (hb : b.isHandler = true)
    (hc : Connection.step host ids b (s.connection k) = some c) :
    ∃ s', Service.step host ids (.io k b) s = some s' := by
  have howns : s.owns k = true := (owns_iff s k).mpr (.inl hk)
  simp [step, hlives, event, howns, hb, handle, hc]

namespace Network

variable {host : ByteOrder} {ids : PacketIDs} {clientHost : Nat → ByteOrder}
  {clientIds : Nat → PacketIDs} {n n' : Network} {a : Action} {k j : Nat}
  {l : Link} {b : Service.Action}

/-- The steps of one connection. -/
def concerns (k : Nat) : Action → Bool
  | .server (.io j _) => j == k
  | .send j _ => j == k
  | .client j _ => j == k
  | .arrive j _ _ => j == k
  | _ => false

/-- A step that is neither a call nor a failure. -/
def Onward : Action → Prop
  | .server (.io _ b) => Connection.Onward b
  | .client _ b => Connection.Onward b
  | .arrive _ _ m => 0 < m
  | _ => False

instance (a : Action) : Decidable (Onward a) := by
  unfold Onward
  split <;> infer_instance

/-- No loop over `m_Connections` begins. -/
def begins : Action → Bool
  | .server (.sendAllClients _ _) => true
  | .server (.sendKeepAlive _) => true
  | _ => false

/-- A step during which nobody sends on the connection. -/
def Calm (k : Nat) (a : Action) : Prop :=
  (concerns k a = true → Onward a) ∧ begins a = false

instance (k : Nat) (a : Action) : Decidable (Calm k a) :=
  inferInstanceAs (Decidable (_ ∧ _))

variable (host ids clientHost clientIds) in
/-- What a calm step keeps: the server is between operations, and the
connection in the container. -/
structure Between (n : Network) (k : Nat) : Prop where
  sorted : Sorted host ids clientHost clientIds n
  idle : n.service.task.isIdle = true
  entry : some k ∈ n.service.mConnections

theorem Between.attached (h : Between host ids clientHost clientIds n k) :
    Attached host ids clientHost clientIds n k :=
  h.sorted.attached k (List.mem_append_left _
    (List.mem_filter.mpr ⟨h.entry, rfl⟩))

variable (host ids clientHost clientIds) in
/-- What a calm step does to the connection's link. -/
def Advances (k : Nat) (n : Network) (a : Action) (n' : Network) : Prop :=
  if concerns k a then
    ∃ b, Link.Onward b ∧ Link.step (sides host clientHost k)
      (sides ids clientIds k) b (n.link k) = some (n'.link k)
  else n'.link k = n.link k

/-- A step of a link moves that link and no other. -/
theorem advances_setLink {b : Link.Action} (ha : concerns k a = (j == k))
    (hb : j = k → Link.Onward b)
    (hl : Link.step (sides host clientHost j) (sides ids clientIds j) b
      (n.link j) = some l) (hlink : n'.link k = (n.setLink j l).link k) :
    Advances host ids clientHost clientIds k n a n' := by
  unfold Advances
  rw [ha, hlink]
  by_cases hj : j = k
  · subst hj
    rw [if_pos (by simp), link_setLink_same]
    exact ⟨b, hb rfl, hl⟩
  · rw [if_neg (by simpa using hj)]
    exact link_setLink_of_ne (Ne.symm hj)

/-- An event of the server's end changes nothing else. -/
theorem setLink_server (n : Network) (j : Nat) (c : Connection) :
    n.setLink j ((n.link j).setConn .server c)
      = { n with service := n.service.setConnection j c } := by
  have hpeer : ((n.link j).setConn .server c).conn .client = n.peer j :=
    Link.setConn_of_ne (by decide)
  have harrived : ((n.link j).setConn .server c).arrived = n.arrived j := rfl
  rw [setLink, Link.setConn_same, hpeer, harrived, Function.update_eq_self,
    Function.update_eq_self]

/-- An event of the server's end. -/
theorem Between.server (h : Between host ids clientHost clientIds n k)
    (hcalm : Calm k (.server b)) {service : Service}
    (hs : Service.step host ids b n.service = some service)
    (hb : accepts b = false) :
    service.task.isIdle = true ∧ some k ∈ service.mConnections
      ∧ Advances host ids clientHost clientIds k n (.server b)
        { note host ids b n with service } := by
  have hidle := h.idle
  cases Service.move_of_step hs with
  | approves | denies => cases hb
  | broadcasts | sweeps => cases hcalm.2
  | @handles j b c howns hstep =>
      refine ⟨h.idle, h.entry, ?_⟩
      have hatt := h.sorted.attached j (h.sorted.seen howns)
      refine advances_setLink rfl (fun hj => ?_) (hatt.event hstep) ?_
      · exact hcalm.1 (by simpa [concerns] using hj)
      · rw [setLink_server]
        rfl
  | pops hqueue => exact ⟨h.idle, h.entry, rfl⟩
  | pings ht | ends ht | drops ht | leaves ht | picks ht | sends ht
  | throws ht | posts ht =>
      rw [ht] at hidle
      cases hidle

/-- A calm step is a step of the connection's link that pays for itself,
or leaves the link alone. -/
theorem calm_step (h : Between host ids clientHost clientIds n k)
    (hcalm : Calm k a)
    (hs : step host ids clientHost clientIds a n = some n') :
    Between host ids clientHost clientIds n' k
      ∧ Advances host ids clientHost clientIds k n a n' := by
  have hsorted := sorted_step h.sorted hs
  cases a with
  | connect approved initPacket now =>
      obtain ⟨service, hservice, rfl⟩ := Option.map_eq_some_iff.mp hs
      have hne : k ≠ n.service.created := h.attached.made.ne
      cases Service.move_of_step hservice with
      | approves hidle =>
          refine ⟨⟨hsorted, hidle, List.mem_append_left _ h.entry⟩, ?_⟩
          exact link_welcome_of_ne hne (Function.update_of_ne hne ..)
      | denies hidle =>
          refine ⟨⟨hsorted, hidle, h.entry⟩, ?_⟩
          exact link_welcome_of_ne hne (Function.update_of_ne hne ..)
  | server b =>
      obtain ⟨service, hb, hservice, rfl⟩ := of_server hs
      obtain ⟨hidle, hentry, hlink⟩ := h.server hcalm hservice hb
      exact ⟨⟨hsorted, hidle, hentry⟩, hlink⟩
  | send j packet =>
      obtain ⟨l, hidle, -, -, hl, rfl⟩ := of_send hs
      refine ⟨⟨hsorted, hidle, h.entry⟩, ?_⟩
      refine advances_setLink rfl (fun hj => ?_) hl rfl
      exact (hcalm.1 (by simpa [concerns] using hj)).elim
  | client j b =>
      obtain ⟨-, l, hl, rfl⟩ := of_linkStep hs
      refine ⟨⟨hsorted, h.idle, h.entry⟩, ?_⟩
      refine advances_setLink rfl (fun hj => ?_) hl rfl
      exact hcalm.1 (by simpa [concerns] using hj)
  | arrive j side m =>
      obtain ⟨-, l, hl, rfl⟩ := of_linkStep hs
      refine ⟨⟨hsorted, h.idle, h.entry⟩, ?_⟩
      refine advances_setLink rfl (fun hj => ?_) hl rfl
      exact hcalm.1 (by simpa [concerns] using hj)

-- ================================================================ the bound

/-- Each step of the connection lowers what is left to do on its link. -/
theorem effort_calm (h : Between host ids clientHost clientIds n k)
    (hmove : Advances host ids clientHost clientIds k n a n') :
    (n'.link k).effort + (concerns k a).toNat ≤ (n.link k).effort := by
  unfold Advances at hmove
  cases hc : concerns k a with
  | false =>
      rw [if_neg (by simp [hc])] at hmove
      rw [hmove]
      exact Nat.le_refl _
  | true =>
      rw [if_pos hc] at hmove
      obtain ⟨b, hb, hl⟩ := hmove
      exact h.attached.joined.effort_drops hb hl

-- ================================================================= at rest

variable (host ids clientHost clientIds) in
/-- Something can still happen on the connection. -/
def CanGoOn (k : Nat) (n : Network) : Prop :=
  ∃ a n', concerns k a = true ∧ Onward a
    ∧ step host ids clientHost clientIds a n = some n'

/-- Between operations nobody is in a `Send` on it. -/
theorem Between.no_calls (h : Between host ids clientHost clientIds n k)
    {steady : Prop} (hannounced : Announced steady n) :
    (n.service.connection k).calls = [] := by
  have hcalls := hannounced.calls k
  rw [Service.calling_of_idle h.idle] at hcalls
  exact List.map_eq_nil_iff.mp hcalls

/-- What can happen on the link can happen in the network. -/
theorem Between.rest_of_rest (h : Between host ids clientHost clientIds n k)
    {steady : Prop} (hannounced : Announced steady n)
    (hlives : n.service.terminated = false)
    (hrest : ¬ CanGoOn host ids clientHost clientIds k n) :
    ¬ Link.CanGoOn (sides host clientHost k) (sides ids clientIds k)
      (n.link k) := by
  rintro ⟨b, l, hb, hl⟩
  have hmade := h.attached.made
  have hlink (b : Link.Action) (l : Link)
      (hl : Link.step (sides host clientHost k) (sides ids clientIds k) b
        (n.link k) = some l) :
      linkStep host ids clientHost clientIds k b n = some (n.setLink k l) := by
    rw [linkStep, if_pos hmade, hl]
    rfl
  cases b with
  | arrive side m =>
      exact hrest ⟨.arrive k side m, _, by simp [concerns], hb,
        hlink _ _ hl⟩
  | event side c =>
      cases side with
      | client =>
          exact hrest ⟨.client k c, _, by simp [concerns], hb,
            hlink _ _ hl⟩
      | server =>
          obtain ⟨c', hc, -⟩ := of_event hl
          have hc : Connection.step host ids c (n.service.connection k)
              = some c' := hc
          have hhandler : c.isHandler = true := by
            cases c with
            | sendEnd i =>
                -- nobody has one under way
                obtain ⟨call, hcall, -⟩ := Connection.of_step_sendEnd hc
                rw [h.no_calls hannounced] at hcall
                cases hcall
            | send | sendBegin | disconnect => exact hb.elim
            | _ => rfl
          obtain ⟨s, hs⟩ := Service.can_handle h.entry hlives hhandler hc
          refine hrest ⟨.server (.io k c), { n with service := s },
            by simp [concerns], hb, ?_⟩
          show (Service.step host ids (.io k c) n.service).map _ = _
          rw [hs]
          rfl

/-- Where no more can be taken, nothing is under way to the client. -/
theorem Between.quiet_of_rest (h : Between host ids clientHost clientIds n k)
    {steady : Prop} (hannounced : Announced steady n)
    (hrest : ¬ CanGoOn host ids clientHost clientIds k n)
    (hlives : n.service.terminated = false)
    (hopen : (n.service.connection k).isOpen = true)
    (hpeer : Link.Works (n.peer k))
    (hfit : ∀ packet ∈ addressed k n.said,
      (Connection.bodyOf packet).length ≤ 65535) :
    Link.Quiet (n.link k) .client := by
  obtain ⟨self, initPacket, now, -, acts, hrun⟩ := h.attached.reached
  have hjoined := h.attached.joined
  have hreads : (n.peer k).reads ≠ [] :=
    (hjoined.phase .client).client_reads hpeer
  exact @Link.Joined.quiet_of_rest _ _ _ .client hjoined (Link.busy_run hrun)
    (h.rest_of_rest hannounced hlives hrest)
    ⟨hopen, h.attached.intact hlives⟩ hpeer hreads (hannounced.fits hfit)

/-- A calm step sends nothing, so nothing it sends throws. -/
theorem Between.steady (h : Between host ids clientHost clientIds n k)
    (a : Action) : Steady n a := by
  unfold Steady
  split
  · intro call hcall
    have hidle := h.idle
    cases ht : n.service.task <;> simp_all [Service.Task.isIdle,
      Service.Task.sending?]
  · exact trivial

/-- Whoever is in the container between operations gets what the program
has said. Unless more is sent on its connection or the connection fails,
only so many of its steps are left, whatever everybody else does; and
where no more can be taken and both ends are open, the client has
received all that was said to it or to all since it was accepted, header
by header, if the bodies fit. -/
theorem everything_arrives (acts : List Action)
    (hsteady : Lts.Meets (step host ids clientHost clientIds) Steady start
      acts)
    (hrun : Lts.run (step host ids clientHost clientIds) start acts = some n)
    (hidle : n.service.task.isIdle = true)
    (hk : some k ∈ n.service.mConnections) :
    ∃ bound, ∀ onward n', (∀ a ∈ onward, Calm k a) →
      Lts.run (step host ids clientHost clientIds) n onward = some n' →
        onward.countP (concerns k) ≤ bound
          ∧ (¬ CanGoOn host ids clientHost clientIds k n' →
            n'.service.terminated = false →
            (n'.service.connection k).isOpen = true →
            Link.Works (n'.peer k) →
            (∀ packet ∈ addressed k n'.said,
              (Connection.bodyOf packet).length ≤ 65535) →
            (n'.peer k).mMessagesIn.map (·.second.header)
              = (addressed k (n'.said.drop (n'.joined k))).map fun packet =>
                  ⟨packet.id, PacketFlags.none,
                    UInt16.ofNat (Connection.bodyOf packet).length⟩) := by
  obtain ⟨hannounced, hsorted⟩ := @announced_run _ _ _ _ n True acts
    (fun _ => hsteady) hrun
  refine ⟨(n.link k).effort, fun onward n' hcalm hon => ?_⟩
  obtain ⟨⟨h', hannounced'⟩, hcount⟩ := @Potential.countP_le _ _
    (step host ids clientHost clientIds) (Calm k) (concerns k)
    (fun n => Between host ids clientHost clientIds n k ∧ Announced True n)
    (fun n => (n.link k).effort)
    (fun n a n' h ha hs => by
      obtain ⟨hbetween, hadvances⟩ := calm_step h.1 ha hs
      exact ⟨⟨hbetween, announced_step h.2 h.1.sorted
        (fun _ => h.1.steady a) hs⟩, effort_calm h.1 hadvances⟩)
    n n' onward ⟨⟨hsorted, hidle, hk⟩, hannounced⟩ hcalm hon
  refine ⟨by omega, fun hrest hlives hopen hpeer hfit => ?_⟩
  exact hannounced'.received_eq h'.sorted h'.idle h'.entry hfit
    (h'.quiet_of_rest hannounced' hrest hlives hopen hpeer hfit)

/-- The way of an announcement to the first of two clients, from where
the loop of `Send_AllClients()` is over. -/
theorem everything_arrives_two :
    ∃ n n' bound, Lts.run (step .little ⟨1, 5⟩ (fun _ => .little)
        fun _ => ⟨1, 5⟩) start (conversing.take 17) = some n
      ∧ Lts.run (step .little ⟨1, 5⟩ (fun _ => .little) fun _ => ⟨1, 5⟩) n
        (conversing.drop 17) = some n'
      ∧ (n'.peer 0).mMessagesIn
        = [⟨none, ⟨⟨3, 0, 8⟩, ⟨[7, 0, 0, 0, 0, 0, 0, 0], 0⟩⟩⟩]
      ∧ (conversing.drop 17).countP (concerns 0) = 5
      ∧ (conversing.drop 17).countP (concerns 0) ≤ bound := by
  obtain ⟨n', hrun, -, -, hmsgs, -⟩ := conversing_run
  have hend : (Lts.run (step .little ⟨1, 5⟩ (fun _ => .little)
      fun _ => ⟨1, 5⟩) start (conversing.take 17)).map (fun n => decide
        (n.service.task.isIdle = true
          ∧ n.service.mConnections = [some 0, some 1])) = some true := by
    decide +kernel
  have hsteady : Lts.Meets (step .little ⟨1, 5⟩ (fun _ => .little)
      fun _ => ⟨1, 5⟩) Steady start (conversing.take 17) := by
    decide +kernel
  obtain ⟨n, hbefore, hn⟩ := Option.map_eq_some_iff.mp hend
  obtain ⟨hidle, hentries⟩ := of_decide_eq_true hn
  obtain ⟨m, hm, hafter⟩ := Lts.run_append_eq_some.mp
    (show Lts.run _ _ (conversing.take 17 ++ conversing.drop 17) = some n'
      from hrun)
  obtain rfl : n = m := Option.some.inj (hbefore.symm.trans hm)
  obtain ⟨bound, hbound⟩ := @everything_arrives _ _ _ _ n 0
    (conversing.take 17) hsteady hbefore hidle (by rw [hentries]; simp)
  have hcalm : ∀ a ∈ conversing.drop 17, Calm 0 a := by decide
  exact ⟨n, n', bound, hbefore, hafter, hmsgs, rfl,
    (hbound _ n' hcalm hafter).1⟩

end Network

end AWEnginePacket
