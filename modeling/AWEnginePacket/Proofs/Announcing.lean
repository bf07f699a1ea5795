/-
All clients hear the same story.

What the server's program says, to all or to one, is one list. What a
client is sent is a part of what was addressed to it, in that order
(`Announced.told`), so no two clients get two announcements the one way
and the other way round, and none of them gets one twice
(`hears_in_order`).

Nobody in the container is left out as long as no `Send` of a loop throws
(`reaches_everyone`). Where one does, the exception leaves the loop, and
the entries behind it are not visited; `steady` is the hypothesis that it
does not happen.

# The loop

While `Send_AllClients()` is at the `i`-th entry, the connections in front
of it have been sent the announcement and those from it on have not. So
what an entry should have been sent depends on where it stands
(`saidTo`). A connection has one entry, so it is met once.
-/
import AWEnginePacket.Proofs.Intake
import AWEnginePacket.Proofs.Turn

namespace AWEnginePacket

open Endian (ByteOrder)

namespace Service

variable {host : ByteOrder} {ids : PacketIDs} {s s' : Service}

/-- What is being announced, and the entry it has come to. -/
def Task.announcing : Task → Option (IPacket × Option Nat × Nat)
  | .looping (.allClients packet ignoredClient) i _ =>
      some (packet, ignoredClient, i)
  | .sending packet ignoredClient i _ _ => some (packet, ignoredClient, i)
  | .posting packet ignoredClient i _ _ => some (packet, ignoredClient, i)
  | _ => none

/-- The packet of the `Send` that has yet to post it to the `k`-th
connection. -/
def Task.calling (k : Nat) : Task → List IPacket
  | .posting packet _ _ _ j => if j = k then [packet] else []
  | _ => []

/-- The `Send` that comes next. -/
def Task.sending? : Task → Option (IPacket × Nat)
  | .sending packet _ _ _ k => some (packet, k)
  | _ => none

theorem announcing_of_idle (h : s.task.isIdle = true) :
    s.task.announcing = none := by
  cases ht : s.task <;> simp_all [Task.isIdle, Task.announcing]

theorem calling_of_idle (h : s.task.isIdle = true) (k : Nat) :
    s.task.calling k = [] := by
  cases ht : s.task <;> simp_all [Task.isIdle, Task.calling]

/-- The loop sends to whom it meets connected and not ignored. -/
theorem visit_send {packet : IPacket} {ignoredClient p : Option Nat} {k : Nat}
    (hv : Loop.visit s.toPacketServer (.allClients packet ignoredClient) p
      = .send k) : p = some k ∧ ignoredClient ≠ some k := by
  obtain rfl := of_visit_send hv
  refine ⟨rfl, ?_⟩
  simp only [Loop.visit] at hv
  split at hv
  · split at hv
    case isTrue hne => exact fun heq => hne heq.symm
    case isFalse => cases hv
  · split at hv
    · cases hv
    · cases hv

/-- It leaves an entry that is ignored, or connecting. -/
theorem visit_leave {packet : IPacket} {ignoredClient : Option Nat} {k : Nat}
    (hv : Loop.visit s.toPacketServer (.allClients packet ignoredClient)
      (some k) = .leave) :
    ignoredClient = some k ∨ (s.connection k).mIsConnecting = true := by
  simp only [Loop.visit] at hv
  split at hv
  · split at hv
    case isTrue => cases hv
    case isFalse heq => exact .inl (not_not.mp heq).symm
  · split at hv
    case isTrue hconn => exact .inr hconn
    case isFalse => cases hv

/-- One more entry, or the end. -/
theorem of_next (h : step host ids .next s = some s') :
    ∃ loop i b, s.task = .looping loop i b
      ∧ (s.mConnections[i]? = none ∧ s' = loopEnds loop b s
        ∨ ∃ p, s.mConnections[i]? = some p ∧ s' = visitAt loop i b p s) := by
  unfold step at h
  split at h
  case isTrue => cases h
  case isFalse =>
    simp only [event] at h
    split at h
    case h_2 => cases h
    case h_1 loop i b ht =>
      refine ⟨loop, i, b, ht, ?_⟩
      split at h
      case h_1 hi =>
        rw [Option.some.injEq] at h
        exact .inl ⟨hi, h.symm⟩
      case h_2 p hi =>
        rw [Option.some.injEq] at h
        exact .inr ⟨p, hi, h.symm⟩

/-- An event of the io thread is a handler's. -/
theorem isHandler_of_io {k : Nat} {b : Connection.Action}
    (h : step host ids (.io k b) s = some s') : b.isHandler = true := by
  unfold step at h
  split at h
  case isTrue => cases h
  case isFalse =>
    simp only [event] at h
    split at h
    case isTrue hio => exact (Bool.and_eq_true_iff.mp hio).2
    case isFalse => cases h

end Service

namespace Connection

variable {host : ByteOrder} {ids : PacketIDs} {c c' : Connection}
  {stream rest : List UInt8} {fs : List WireFrame} {a : Action}

/-- The server's end of a link is not connecting. -/
theorem Phase.settled {heard : List UInt8}
    (h : Phase host ids heard .toClient c) : c.mIsConnecting = false := by
  cases h with
  | talking _ _ hr hp =>
      obtain ⟨done, stage, hp⟩ := hp
      exact hp.isConnecting

/-- A `Send` up to its post. -/
theorem voice_sendBegin {packet : IPacket}
    (h : step host ids (.sendBegin packet) c = some c') :
    c'.voice = (c.voice.1, c.voice.2 ++ [packet]) := by
  obtain ⟨call, rfl, -, -, rfl⟩ := of_step_sendBegin h
  have hposts := remembered_posts host ids c call.info
  show ((remembered host ids c call.info).sent.map _,
    ((remembered host ids c call.info).calls ++ [call]).map _) = _
  rw [hposts.sent, hposts.calls, List.append_nil, List.map_append]
  rfl

/-- Its post. -/
theorem voice_sendEnd {packet : IPacket} (hcalls : c.voice.2 = [packet])
    (h : step host ids (.sendEnd 0) c = some c') :
    c'.voice = (c.voice.1 ++ [packet], []) := by
  obtain ⟨call, hcall, rfl⟩ := of_step_sendEnd h
  obtain ⟨first, hfirst, rfl⟩ := List.map_eq_singleton_iff.mp hcalls
  rw [hfirst] at hcall
  obtain rfl : first = call := Option.some.inj hcall
  rw [voice, post_sent, List.map_append]
  show _ = (c.voice.1 ++ _, _)
  refine Prod.ext rfl ?_
  show (c.calls.eraseIdx 0).map _ = []
  rw [hfirst]
  rfl

/-- Both in one. -/
theorem voice_send {packet : IPacket}
    (h : step host ids (.send packet) c = some c') :
    c'.voice = (c.voice.1 ++ [packet], c.voice.2) := by
  obtain ⟨call, rfl, -, -, rfl⟩ := of_step_send h
  have hposts := remembered_posts host ids c call.info
  rw [voice, post_sent, List.map_append, hposts.sent, List.append_nil]
  refine Prod.ext rfl ?_
  show (remembered host ids c call.info).calls.map _ = _
  rw [hposts.calls]
  rfl

end Connection

namespace Network

variable {host : ByteOrder} {ids : PacketIDs} {clientHost : Nat → ByteOrder}
  {clientIds : Nat → PacketIDs} {n n' : Network} {a : Action} {k j i : Nat}
  {steady : Prop} {packet : IPacket} {ignoredClient : Option Nat}

-- ============================================================== addressees

/-- The packet, where it is for the `k`-th client. -/
def Said.to? (k : Nat) : Said → Option IPacket
  | .allClients packet ignoredClient =>
      if ignoredClient = some k then none else some packet
  | .client j packet => if j = k then some packet else none

/-- What was addressed to the `k`-th client. -/
def addressed (k : Nat) (l : List Said) : List IPacket :=
  l.filterMap (Said.to? k)

/-- What the `k`-th client should have been sent when `l` has been said:
nothing but what was addressed to it and, if none was missed, all since it
joined. -/
def Heard (steady : Prop) (k : Nat) (l : List Said) (joined : Nat)
    (sent : List IPacket) : Prop :=
  sent.Sublist (addressed k l)
    ∧ (steady → joined ≤ l.length ∧ sent = addressed k (l.drop joined))

section heard

variable {l : List Said} {joined : Nat} {sent : List IPacket} {x : Said}

theorem addressed_append (k : Nat) (l l' : List Said) :
    addressed k (l ++ l') = addressed k l ++ addressed k l' :=
  List.filterMap_append

/-- It is sent what is said to it. -/
theorem Heard.said (h : Heard steady k l joined sent)
    (hx : x.to? k = some packet) :
    Heard steady k (l ++ [x]) joined (sent ++ [packet]) := by
  have hone : addressed k [x] = [packet] := by simp [addressed, hx]
  refine ⟨?_, fun hsteady => ?_⟩
  · rw [addressed_append, hone]
    exact h.1.append_right _
  · obtain ⟨hle, hsent⟩ := h.2 hsteady
    rw [List.drop_append_of_le_length hle, addressed_append, hone, hsent,
      List.length_append]
    exact ⟨Nat.le_add_right_of_le hle, rfl⟩

/-- It is not sent what is not for it. -/
theorem Heard.skip (h : Heard steady k l joined sent)
    (hx : x.to? k = none) : Heard steady k (l ++ [x]) joined sent := by
  have hnone : addressed k [x] = [] := by simp [addressed, hx]
  refine ⟨?_, fun hsteady => ?_⟩
  · rw [addressed_append, hnone, List.append_nil]
    exact h.1
  · obtain ⟨hle, hsent⟩ := h.2 hsteady
    rw [List.drop_append_of_le_length hle, addressed_append, hnone,
      List.append_nil, List.length_append]
    exact ⟨Nat.le_add_right_of_le hle, hsent⟩

/-- It is left out. -/
theorem Heard.missed (h : Heard steady k l joined sent) (x : Said)
    (hnot : ¬ steady) : Heard steady k (l ++ [x]) joined sent := by
  refine ⟨?_, fun hsteady => absurd hsteady hnot⟩
  rw [addressed_append]
  exact h.1.trans (List.sublist_append_left _ _)

theorem Heard.new (k : Nat) (l : List Said) :
    Heard steady k l l.length [] := by
  refine ⟨List.nil_sublist _, fun _ => ⟨Nat.le_refl _, ?_⟩⟩
  rw [List.drop_length]
  rfl

end heard

-- =============================================================== invariant

/-- What has been said to the `j`-th entry: the announcement under way has
not reached those from the `i`-th on. -/
def saidTo (n : Network) (j : Nat) : List Said :=
  match n.service.task.announcing with
  | some (_, _, i) => if i ≤ j then n.said.dropLast else n.said
  | none => n.said

/-- What the connections have been sent. -/
structure Announced (steady : Prop) (n : Network) : Prop where
  distinct : Service.Distinct n.service
  current : ∀ packet ignoredClient i,
    n.service.task.announcing = some (packet, ignoredClient, i) →
      n.said.getLast? = some (.allClients packet ignoredClient)
  target : ∀ i k, n.service.task.target = some (i, k) →
    n.service.mConnections[i]? = some (some k) ∧ ∃ packet ignoredClient,
      n.service.task.announcing = some (packet, ignoredClient, i)
        ∧ ignoredClient ≠ some k
  calls : ∀ k, (n.service.connection k).voice.2 = n.service.task.calling k
  told : ∀ k,
    (n.service.connection k).voice.1.Sublist (addressed k n.said)
  entries : ∀ j k, n.service.mConnections[j]? = some (some k) →
    Heard steady k (n.saidTo j) (n.joined k)
      (n.service.connection k).voice.1

theorem announced_start : Announced steady start := by
  refine ⟨Service.distinct_start, fun _ _ _ h => ?_, fun _ _ h => ?_,
    fun _ => rfl, fun _ => List.nil_sublist _, fun j k h => ?_⟩
  · cases h
  · cases h
  · cases h

theorem saidTo_of_none (h : n.service.task.announcing = none) (j : Nat) :
    n.saidTo j = n.said := by
  rw [saidTo, h]

theorem saidTo_of_le
    (h : n.service.task.announcing = some (packet, ignoredClient, i))
    (hj : i ≤ j) : n.saidTo j = n.said.dropLast := by
  rw [saidTo, h]
  exact if_pos hj

theorem saidTo_of_lt
    (h : n.service.task.announcing = some (packet, ignoredClient, i))
    (hj : j < i) : n.saidTo j = n.said := by
  rw [saidTo, h]
  exact if_neg (Nat.not_le.mpr hj)

/-- The announcement under way is the last thing said. -/
theorem Announced.said_eq (h : Announced steady n)
    (ht : n.service.task.announcing = some (packet, ignoredClient, i)) :
    n.said = n.said.dropLast ++ [.allClients packet ignoredClient] :=
  (List.dropLast_append_getLast? _ (h.current packet ignoredClient i ht)).symm

/-- No connection has another entry. -/
theorem Announced.entry_unique (h : Announced steady n)
    (hi : n.service.mConnections[i]? = some (some k))
    (hj : n.service.mConnections[j]? = some (some k)) : i = j :=
  Slots.slot_unique h.distinct.1 hi hj

/-- A connection in the container is one that has been let in. -/
theorem seen_of_entry (h : n.service.mConnections[i]? = some (some k)) :
    some k ∈ n.service.seen := by
  refine List.mem_append_left _ (List.mem_filter.mpr ⟨?_, rfl⟩)
  exact List.mem_of_getElem? h

/-- A step that sends nothing: it is enough that each entry that is left
should have been sent what it has been sent. -/
theorem Announced.walks (h : Announced steady n)
    (hdistinct : Service.Distinct n'.service)
    (hvoice : ∀ k, (n'.service.connection k).voice
      = (n.service.connection k).voice)
    (hsaid : n'.said = n.said) (hjoined : n'.joined = n.joined)
    (hcalls : ∀ k, n'.service.task.calling k = n.service.task.calling k)
    (hcurrent : ∀ packet ignoredClient i,
      n'.service.task.announcing = some (packet, ignoredClient, i) →
      ∃ i, n.service.task.announcing = some (packet, ignoredClient, i))
    (htarget : ∀ i k, n'.service.task.target = some (i, k) →
      n'.service.mConnections[i]? = some (some k)
        ∧ ∃ packet ignoredClient, n'.service.task.announcing
            = some (packet, ignoredClient, i) ∧ ignoredClient ≠ some k)
    (hentries : ∀ j k, n'.service.mConnections[j]? = some (some k) →
      Heard steady k (n'.saidTo j) (n.joined k)
        (n.service.connection k).voice.1) : Announced steady n' := by
  refine ⟨hdistinct, fun packet ignoredClient i ht => ?_, htarget,
    fun k => ?_, fun k => ?_, fun j k hj => ?_⟩
  · obtain ⟨i', ht'⟩ := hcurrent packet ignoredClient i ht
    rw [hsaid]
    exact h.current packet ignoredClient i' ht'
  · rw [hvoice, hcalls]
    exact h.calls k
  · rw [hvoice, hsaid]
    exact h.told k
  · rw [hvoice, hjoined]
    exact hentries j k hj

/-- A step that none of this is about. -/
theorem Announced.of_same (h : Announced steady n)
    (htask : n'.service.task = n.service.task)
    (hentries : n'.service.mConnections = n.service.mConnections)
    (hcreated : n'.service.created = n.service.created)
    (hvoice : ∀ k, (n'.service.connection k).voice
      = (n.service.connection k).voice)
    (hsaid : n'.said = n.said) (hjoined : n'.joined = n.joined) :
    Announced steady n' := by
  refine h.walks ?_ hvoice hsaid hjoined (fun k => ?_)
    (fun packet ignoredClient i ht => ?_) ?_ (fun j k hj => ?_)
  · rw [Service.Distinct, hentries, hcreated]
    exact h.distinct
  · rw [htask]
  · rw [htask] at ht
    exact ⟨i, ht⟩
  · rw [htask, hentries]
    exact h.target
  · rw [hentries] at hj
    rw [saidTo, htask, hsaid]
    exact h.entries j k hj

-- ================================================================= moves

/-- An announcement begins. -/
theorem Announced.begins (h : Announced steady n)
    (hnone : n.service.task.announcing = none)
    (hcalling : ∀ k, n.service.task.calling k = [])
    {service : Service} (hdistinct : Service.Distinct service)
    (htask : service.task
      = .looping (.allClients packet ignoredClient) 0 false)
    (hentries : service.mConnections = n.service.mConnections)
    (hconn : service.connection = n.service.connection) :
    Announced steady { n with
      said := n.said ++ [.allClients packet ignoredClient], service } := by
  refine ⟨hdistinct, fun packet' ignoredClient' i ht => ?_, fun i k ht => ?_,
    fun k => ?_, fun k => ?_, fun j k hj => ?_⟩
  · have ht : service.task.announcing
        = some (packet', ignoredClient', i) := ht
    rw [htask, Service.Task.announcing, Option.some.injEq] at ht
    obtain ⟨rfl, rfl, -⟩ := ht
    exact List.getLast?_concat
  · have ht : service.task.target = some (i, k) := ht
    rw [htask] at ht
    cases ht
  · show (service.connection k).voice.2 = service.task.calling k
    rw [hconn, htask, h.calls k, hcalling k]
    rfl
  · show (service.connection k).voice.1.Sublist
      (addressed k (n.said ++ [.allClients packet ignoredClient]))
    rw [hconn, addressed_append]
    exact (h.told k).trans (List.sublist_append_left _ _)
  · have hj : service.mConnections[j]? = some (some k) := hj
    rw [hentries] at hj
    have hold := h.entries j k hj
    rw [saidTo_of_none hnone] at hold
    have hsame : saidTo { n with
        said := n.said ++ [.allClients packet ignoredClient], service } j
        = n.said := by
      rw [saidTo_of_le (n := { n with
        said := n.said ++ [.allClients packet ignoredClient], service })
        (congrArg Service.Task.announcing htask) (Nat.zero_le j)]
      exact List.dropLast_concat
    rw [hsame]
    show Heard steady k n.said (n.joined k) (service.connection k).voice.1
    rw [hconn]
    exact hold

/-- A step of a loop leaves alone what the other entries should have been
sent. -/
theorem saidTo_looping {loop : Service.Loop} {b b' : Bool}
    (ht : n.service.task = .looping loop i b)
    (ht' : n'.service.task = .looping loop (i + 1) b')
    (hsaid : n'.said = n.said) (hne : j ≠ i) : n'.saidTo j = n.saidTo j := by
  rw [saidTo, saidTo, ht, ht', hsaid]
  cases loop with
  | keepAlive oldestKeepAlive => rfl
  | allClients packet ignoredClient =>
      show (if i + 1 ≤ j then _ else _) = if i ≤ j then _ else _
      by_cases hle : i ≤ j
      · rw [if_pos hle, if_pos (by omega)]
      · rw [if_neg hle, if_neg (by omega)]

/-- At the end of a loop the announcement has come to every entry. -/
theorem saidTo_ended {loop : Service.Loop} {b : Bool}
    (ht : n.service.task = .looping loop i b) (hj : j < i) :
    n.saidTo j = n.said := by
  cases loop with
  | keepAlive oldestKeepAlive =>
      exact saidTo_of_none (congrArg Service.Task.announcing ht) j
  | allClients packet ignoredClient =>
      exact saidTo_of_lt (congrArg Service.Task.announcing ht) hj

/-- A loop leaves an entry behind: it resets it, or the announcement is
not for it. -/
theorem Announced.passes (h : Announced steady n) {loop : Service.Loop}
    {b b' : Bool} (ht : n.service.task = .looping loop i b)
    {service : Service} (hdistinct : Service.Distinct service)
    (ht' : service.task = .looping loop (i + 1) b')
    (hconn : service.connection = n.service.connection)
    (hentries : ∀ j k, service.mConnections[j]? = some (some k) →
      n.service.mConnections[j]? = some (some k)
        ∧ (j = i → ∀ packet ignoredClient,
          loop = .allClients packet ignoredClient →
          (Said.allClients packet ignoredClient).to? k = none)) :
    Announced steady { n with service } := by
  refine h.walks hdistinct (fun k => ?_) rfl rfl (fun k => ?_)
    (fun packet ignoredClient i' ha => ?_) (fun i' k hk => ?_)
    (fun j k hj => ?_)
  · show (service.connection k).voice = _
    rw [hconn]
  · show service.task.calling k = _
    rw [ht, ht']
    rfl
  · have ha : service.task.announcing = some (packet, ignoredClient, i') := ha
    rw [ht'] at ha
    rw [ht]
    cases loop with
    | keepAlive oldestKeepAlive => cases ha
    | allClients packet ignoredClient =>
        cases ha
        exact ⟨i, rfl⟩
  · have hk : service.task.target = some (i', k) := hk
    rw [ht'] at hk
    cases hk
  · obtain ⟨hj, hskip⟩ := hentries j k hj
    have hold := h.entries j k hj
    by_cases hne : j = i
    · subst hne
      cases loop with
      | keepAlive oldestKeepAlive =>
          rw [saidTo_of_none (congrArg Service.Task.announcing ht)] at hold
          rw [saidTo_of_none (congrArg Service.Task.announcing ht')]
          exact hold
      | allClients packet ignoredClient =>
          have ha := congrArg Service.Task.announcing ht
          rw [saidTo_of_le ha (Nat.le_refl j)] at hold
          rw [saidTo_of_lt (n := { n with service })
            (congrArg Service.Task.announcing ht') (Nat.lt_succ_self j)]
          show Heard steady k n.said _ _
          rw [h.said_eq ha]
          exact hold.skip (hskip rfl packet ignoredClient rfl)
    · have hsame : saidTo { n with service } j = n.saidTo j :=
        saidTo_looping ht ht' rfl hne
      rw [hsame]
      exact hold

/-- One more entry. -/
theorem Announced.next (h : Announced steady n)
    (hatt : ∀ k, some k ∈ n.service.seen →
      Attached host ids clientHost clientIds n k)
    {service : Service}
    (hs : Service.step host ids .next n.service = some service) :
    Announced steady { n with service } := by
  have hdistinct := Service.distinct_move h.distinct
    (Service.move_of_step hs)
  obtain ⟨loop, i, b, ht, hcases⟩ := Service.of_next hs
  have hcalling (k : Nat) : n.service.task.calling k = [] := by
    rw [ht]
    rfl
  rcases hcases with ⟨hi, rfl⟩ | ⟨p, hi, rfl⟩
  · rw [Service.loopEnds_eq] at hdistinct ⊢
    refine h.walks hdistinct (fun _ => rfl) rfl rfl (fun k => ?_)
      (fun packet ignoredClient i' ht' => ?_) (fun i' k ht' => ?_)
      (fun j k hj => ?_)
    · rw [hcalling]
      cases loop <;> rfl
    · cases loop <;> cases ht'
    · cases loop <;> cases ht'
    · have hmem := Service.mem_erased.mp (List.mem_of_getElem? hj)
      obtain ⟨j', hj'⟩ := List.mem_iff_getElem?.mp hmem
      have hlt : j' < i := by
        by_contra hle
        rw [List.getElem?_eq_none_iff] at hi
        obtain ⟨hlen, -⟩ := List.getElem?_eq_some_iff.mp hj'
        omega
      have hold := h.entries j' k hj'
      rw [saidTo_ended ht hlt] at hold
      rw [saidTo_of_none]
      · exact hold
      · cases loop <;> rfl
  · unfold Service.visitAt at hdistinct ⊢
    cases hv : loop.visit n.service.toPacketServer p with
    | drop =>
        rw [hv] at hdistinct
        refine h.passes ht hdistinct rfl rfl fun j k hj => ?_
        have hj : (n.service.mConnections.set i none)[j]?
          = some (some k) := hj
        have hne : i ≠ j := by
          rintro rfl
          rw [List.getElem?_set_self'] at hj
          cases hlt : n.service.mConnections[i]? <;> simp [hlt] at hj
        rw [List.getElem?_set_ne hne] at hj
        exact ⟨hj, fun heq => absurd heq.symm hne⟩
    | leave =>
        rw [hv] at hdistinct
        refine h.passes ht hdistinct rfl rfl fun j k hj => ⟨hj, ?_⟩
        rintro rfl packet ignoredClient rfl
        have hp : p = some k := Option.some.inj (hi.symm.trans hj)
        rw [hp] at hv
        rcases Service.visit_leave hv with hign | hconn
        · exact if_pos hign
        · have hatt := hatt k (seen_of_entry hj)
          have hsettled := (hatt.joined.phase .server).settled
          exact absurd (hsettled.symm.trans hconn) Bool.false_ne_true
    | send k =>
        cases loop with
        | keepAlive oldestKeepAlive =>
            simp only [Service.Loop.visit] at hv
            split at hv <;> cases hv
        | allClients packet ignoredClient =>
            rw [hv] at hdistinct
            obtain ⟨rfl, hign⟩ := Service.visit_send hv
            have ha := congrArg Service.Task.announcing ht
            refine h.walks hdistinct (fun _ => rfl) rfl rfl (fun k' => ?_)
              (fun packet' ignoredClient' i' ha' => ?_)
              (fun i' k' hk' => ?_) (fun j k' hj => ?_)
            · rw [hcalling]
              rfl
            · cases ha'
              exact ⟨i, ha⟩
            · cases hk'
              exact ⟨hi, packet, ignoredClient, rfl, hign⟩
            · have hold := h.entries j k' hj
              rw [saidTo, ha] at hold
              exact hold

/-- A `Send` in the loop gets to its post. -/
theorem Announced.sends (h : Announced steady n) {b : Bool} {c : Connection}
    (ht : n.service.task = .sending packet ignoredClient i b k)
    (hvoice : c.voice = ((n.service.connection k).voice.1,
      (n.service.connection k).voice.2 ++ [packet])) :
    Announced steady { n with service := { n.service.setConnection k c with
      task := .posting packet ignoredClient i b k } } := by
  have hcalls (j : Nat) : (n.service.connection j).voice.2 = [] := by
    rw [h.calls j, ht]
    rfl
  have hsent (j : Nat) : (Function.update n.service.connection k c j).voice.1
      = (n.service.connection j).voice.1 := by
    by_cases hj : j = k
    · subst hj
      rw [Function.update_self, hvoice]
    · rw [Function.update_of_ne hj]
  have ha : n.service.task.announcing = some (packet, ignoredClient, i) :=
    congrArg Service.Task.announcing ht
  refine ⟨h.distinct, fun packet' ignoredClient' i' ha' => ?_,
    fun i' k' hk' => ?_, fun j => ?_, fun j => ?_, fun j k' hj => ?_⟩
  · cases ha'
    exact h.current packet ignoredClient i ha
  · cases hk'
    obtain ⟨hentry, packet', ignoredClient', ha', hign⟩ :=
      h.target i k (congrArg Service.Task.target ht)
    rw [ha] at ha'
    cases ha'
    exact ⟨hentry, packet, ignoredClient, rfl, hign⟩
  · show (Function.update n.service.connection k c j).voice.2
      = if k = j then [packet] else []
    by_cases hj : j = k
    · subst hj
      rw [Function.update_self, hvoice, hcalls, if_pos rfl]
      rfl
    · rw [Function.update_of_ne hj, hcalls, if_neg (Ne.symm hj)]
  · show (Function.update n.service.connection k c j).voice.1.Sublist _
    rw [hsent]
    exact h.told j
  · show Heard steady k' _ _ (Function.update n.service.connection k c
      k').voice.1
    have hold := h.entries j k' hj
    rw [saidTo, ha] at hold
    rw [hsent]
    exact hold

/-- It posts the announcement. -/
theorem Announced.posts (h : Announced steady n) {b : Bool} {c : Connection}
    (ht : n.service.task = .posting packet ignoredClient i b k)
    (hvoice : c.voice
      = ((n.service.connection k).voice.1 ++ [packet], [])) :
    Announced steady { n with service := { n.service.setConnection k c with
      task := .looping (.allClients packet ignoredClient) (i + 1) b } } := by
  have ha : n.service.task.announcing = some (packet, ignoredClient, i) :=
    congrArg Service.Task.announcing ht
  obtain ⟨hentry, packet', ignoredClient', ha', hign⟩ :=
    h.target i k (congrArg Service.Task.target ht)
  rw [ha] at ha'
  cases ha'
  have hto : (Said.allClients packet ignoredClient).to? k = some packet :=
    if_neg hign
  have hk := (h.entries i k hentry)
  rw [saidTo_of_le ha (Nat.le_refl i)] at hk
  have hnew := hk.said hto
  rw [← h.said_eq ha] at hnew
  refine ⟨h.distinct, fun packet' ignoredClient' i' ha' => ?_,
    fun i' k' hk' => ?_, fun j => ?_, fun j => ?_, fun j k' hj => ?_⟩
  · cases ha'
    exact h.current packet ignoredClient i ha
  · cases hk'
  · show (Function.update n.service.connection k c j).voice.2 = []
    by_cases hj : j = k
    · subst hj
      rw [Function.update_self, hvoice]
    · rw [Function.update_of_ne hj, h.calls j, ht]
      exact if_neg (Ne.symm hj)
  · show (Function.update n.service.connection k c j).voice.1.Sublist _
    by_cases hj : j = k
    · subst hj
      rw [Function.update_self, hvoice]
      exact hnew.1
    · rw [Function.update_of_ne hj]
      exact h.told j
  · have hentry' : n.service.mConnections[j]? = some (some k') := hj
    have hold := h.entries j k' hentry'
    show Heard steady k' (if i + 1 ≤ j then n.said.dropLast else n.said) _
      (Function.update n.service.connection k c k').voice.1
    by_cases hk' : k' = k
    · subst hk'
      obtain rfl := h.entry_unique hentry' hentry
      rw [Function.update_self, hvoice, if_neg (by omega)]
      exact hnew
    · have hne : j ≠ i := by
        rintro rfl
        rw [hentry] at hentry'
        cases hentry'
        exact hk' rfl
      rw [saidTo, ha] at hold
      have hsame : (if i + 1 ≤ j then n.said.dropLast else n.said)
          = if i ≤ j then n.said.dropLast else n.said := by
        by_cases hle : i ≤ j
        · rw [if_pos hle, if_pos (by omega)]
        · rw [if_neg hle, if_neg (by omega)]
      rw [Function.update_of_ne hk', hsame]
      exact hold

/-- It throws, and the entries from there on are not visited. -/
theorem Announced.throws (h : Announced steady n) {b : Bool}
    (ht : n.service.task = .sending packet ignoredClient i b k)
    (hnot : ¬ steady) :
    Announced steady { n with
      service := { n.service with task := .idle } } := by
  have ha : n.service.task.announcing = some (packet, ignoredClient, i) :=
    congrArg Service.Task.announcing ht
  refine h.walks h.distinct (fun _ => rfl) rfl rfl (fun j => ?_)
    (fun packet' ignoredClient' i' ha' => ?_) (fun i' k' hk' => ?_)
    (fun j k' hj => ?_)
  · rw [ht]
    rfl
  · cases ha'
  · cases hk'
  · have hold := h.entries j k' hj
    show Heard steady k' n.said _ _
    by_cases hle : i ≤ j
    · rw [saidTo_of_le ha hle] at hold
      rw [h.said_eq ha]
      exact hold.missed _ hnot
    · rw [saidTo_of_lt ha (by omega)] at hold
      exact hold

/-- No `Send` of a loop throws. -/
def Steady (n : Network) : Action → Prop
  | .server .send => ∀ call ∈ n.service.task.sending?,
      Connection.Sends call.1 (n.service.connection call.2)
  | _ => True

instance (packet : IPacket) :
    Decidable (∃ body, packet.write.run {} = .ok ⟨⟩ body) :=
  match packet.write.run {} with
  | .ok _ body => isTrue ⟨body, rfl⟩
  | .error _ _ => isFalse (by simp)

instance (packet : IPacket) (c : Connection) :
    Decidable (Connection.Sends packet c) :=
  inferInstanceAs (Decidable (_ ∧ _))

instance (n : Network) (a : Action) : Decidable (Steady n a) := by
  unfold Steady
  split <;> infer_instance

/-- A step of the server. -/
theorem Announced.server (h : Announced steady n)
    (hsorted : Sorted host ids clientHost clientIds n)
    {b : Service.Action} {service : Service}
    (hg : steady → Steady n (.server b)) (hb : accepts b = false)
    (hs : Service.step host ids b n.service = some service) :
    Announced steady { note host ids b n with service } := by
  have hlives := Service.lives_of_step hs
  have hmove := Service.move_of_step hs
  have hdistinct := Service.distinct_move h.distinct hmove
  cases hmove with
  | approves hidle => cases hb
  | denies hidle => cases hb
  | @handles k b c howns hstep =>
      have hatt := hsorted.attached k (hsorted.seen howns)
      obtain ⟨fs, rest, hr⟩ := (hatt.joined.phase .server).reader
      have hvoice := Connection.handler_silent hr
        (Service.isHandler_of_io hs) hstep
      refine h.of_same rfl rfl rfl (fun j => ?_) rfl rfl
      show (Function.update n.service.connection k c j).voice = _
      by_cases hj : j = k
      · subst hj
        rw [Function.update_self]
        exact hvoice
      · rw [Function.update_of_ne hj]
  | pops hqueue => exact h.of_same rfl rfl rfl (fun _ => rfl) rfl rfl
  | broadcasts hidle =>
      exact h.begins (Service.announcing_of_idle hidle)
        (Service.calling_of_idle hidle) hdistinct rfl rfl rfl
  | sweeps hidle =>
      refine h.walks hdistinct (fun _ => rfl) rfl rfl (fun k => ?_)
        (fun packet ignoredClient i ha => ?_) (fun i k hk => ?_)
        (fun j k hj => ?_)
      · rw [Service.calling_of_idle hidle]
        rfl
      · cases ha
      · cases hk
      · have hold := h.entries j k hj
        rw [saidTo_of_none (Service.announcing_of_idle hidle)] at hold
        exact hold
  | pings ht =>
      refine h.begins ?_ (fun k => ?_) hdistinct rfl rfl rfl
      · rw [ht]
        rfl
      · rw [ht]
        rfl
  | ends ht hi => exact h.next hsorted.attached hs
  | drops ht hi hv => exact h.next hsorted.attached hs
  | leaves ht hi hv => exact h.next hsorted.attached hs
  | picks ht hi hv => exact h.next hsorted.attached hs
  | @sends packet ignoredClient i k b c ht hsends hrun =>
      obtain ⟨hentry, -⟩ := h.target i k (congrArg Service.Task.target ht)
      have hatt := hsorted.attached k (seen_of_entry hentry)
      exact h.sends ht (Connection.voice_sendBegin
        (Connection.step_sendBegin (hatt.intact hlives) hrun))
  | @throws packet ignoredClient i k b ht hthrows =>
      exact h.throws ht fun hsteady =>
        hthrows (hg hsteady (packet, k) (by rw [ht]; rfl))
  | @posts packet ignoredClient i k b c ht hstep =>
      refine h.posts ht (Connection.voice_sendEnd ?_ hstep)
      rw [h.calls k, ht]
      exact if_pos rfl

/-- Somebody new: it should have been sent nothing yet. -/
theorem Announced.connect (h : Announced steady n) {approved : Bool}
    {initPacket : Option IPacket} {now : Side → TimePoint}
    (hs : step host ids clientHost clientIds
      (.connect approved initPacket now) n = some n') :
    Announced steady n' := by
  obtain ⟨service, hservice, rfl⟩ := Option.map_eq_some_iff.mp hs
  have hmove := Service.move_of_step hservice
  have hdistinct := Service.distinct_move h.distinct hmove
  have hmade {j k : Nat} (hj : n.service.mConnections[j]? = some (some k)) :
      k ≠ n.service.created := by
    obtain ⟨k', hlt, heq⟩ := h.distinct.2 (some k)
      (List.mem_filter.mpr ⟨List.mem_of_getElem? hj, rfl⟩)
    cases heq
    exact hlt.ne
  have hidle : n.service.task.isIdle = true := by
    cases hmove with
    | approves hidle => exact hidle
    | denies hidle => exact hidle
  have htask : service.task = n.service.task := by
    cases hmove with
    | approves hidle => rfl
    | denies hidle => rfl
  have hnew : (service.connection n.service.created).voice = ([], []) := by
    cases hmove with
    | approves hidle =>
        show Connection.voice (Function.update n.service.connection _ _
          n.service.created) = _
        rw [Function.update_self]
        rfl
    | denies hidle =>
        show Connection.voice (Function.update n.service.connection _ _
          n.service.created) = _
        rw [Function.update_self]
        rfl
  have hold {k : Nat} (hk : k ≠ n.service.created) :
      service.connection k = n.service.connection k := by
    cases hmove with
    | approves hidle => exact Function.update_of_ne hk ..
    | denies hidle => exact Function.update_of_ne hk ..
  have hentry {j k : Nat} (hj : service.mConnections[j]? = some (some k)) :
      k = n.service.created
        ∨ n.service.mConnections[j]? = some (some k) := by
    cases hmove with
    | @approves incoming now hidle =>
        have hj : (n.service.mConnections
          ++ [some n.service.created])[j]? = some (some k) := hj
        rw [List.getElem?_append] at hj
        split at hj
        case isTrue => exact .inr hj
        case isFalse =>
          have hmem := List.mem_of_getElem? hj
          exact .inl (Option.some.inj (List.mem_singleton.mp hmem))
    | denies hidle => exact .inr hj
  have hnone : service.task.announcing = none := by
    rw [htask]
    exact Service.announcing_of_idle hidle
  refine ⟨hdistinct, fun packet ignoredClient i ha => ?_,
    fun i k hk => ?_, fun k => ?_, fun k => ?_, fun j k hj => ?_⟩
  · exact absurd (hnone.symm.trans ha) (Option.some_ne_none _).symm
  · have hk : service.task.target = some (i, k) := hk
    rw [htask] at hk
    cases ht : n.service.task <;>
      simp_all [Service.Task.isIdle, Service.Task.target]
  · show (service.connection k).voice.2 = service.task.calling k
    rw [htask, Service.calling_of_idle hidle]
    by_cases hk : k = n.service.created
    · rw [hk, hnew]
    · rw [hold hk, h.calls k, Service.calling_of_idle hidle]
  · show (service.connection k).voice.1.Sublist (addressed k n.said)
    by_cases hk : k = n.service.created
    · rw [hk, hnew]
      exact List.nil_sublist _
    · rw [hold hk]
      exact h.told k
  · show Heard steady k (saidTo _ j)
      (Function.update n.joined n.service.created n.said.length k)
      (service.connection k).voice.1
    rw [saidTo_of_none (n := n.welcome service initPacket (now .client)) hnone]
    by_cases hk : k = n.service.created
    · rw [hk, hnew, Function.update_self]
      exact Heard.new _ _
    · rw [hold hk, Function.update_of_ne hk]
      rcases hentry hj with hk' | hj'
      · exact absurd hk' hk
      · have hheard := h.entries j k hj'
        rw [saidTo_of_none (Service.announcing_of_idle hidle)] at hheard
        exact hheard

/-- A `Send` to one client, between operations. -/
theorem Announced.send (h : Announced steady n)
    (hs : step host ids clientHost clientIds (.send k packet) n = some n') :
    Announced steady n' := by
  obtain ⟨l, hidle, -, -, hl, rfl⟩ := of_send hs
  obtain ⟨c, hc, rfl⟩ := of_event hl
  have hvoice := Connection.voice_send hc
  have hnone := Service.announcing_of_idle hidle
  have hconn (j : Nat) : ((n.setLink k ((n.link k).setConn .server
      c)).service.connection j).voice
        = if j = k then ((n.service.connection k).voice.1 ++ [packet],
            (n.service.connection k).voice.2)
          else (n.service.connection j).voice := by
    show (Function.update n.service.connection k _ j).voice = _
    by_cases hj : j = k
    · subst hj
      rw [Function.update_self, if_pos rfl, Link.setConn_same]
      exact hvoice
    · rw [Function.update_of_ne hj, if_neg hj]
  refine ⟨h.distinct, fun packet' ignoredClient i ha => ?_,
    h.target, fun j => ?_, fun j => ?_, fun j k' hj => ?_⟩
  · exact absurd (hnone.symm.trans ha) (Option.some_ne_none _).symm
  · show ((n.setLink k _).service.connection j).voice.2 = _
    have hcalls : ((n.setLink k ((n.link k).setConn .server
        c)).service.connection j).voice.2
          = (n.service.connection j).voice.2 := by
      rw [hconn]
      by_cases hj : j = k
      · rw [if_pos hj, hj]
      · rw [if_neg hj]
    exact hcalls.trans (h.calls j)
  · show ((n.setLink k _).service.connection j).voice.1.Sublist
      (addressed j (n.said ++ [.client k packet]))
    rw [hconn, addressed_append]
    by_cases hj : j = k
    · subst hj
      rw [if_pos rfl]
      have hone : addressed j [.client j packet] = [packet] := by
        simp [addressed, Said.to?]
      rw [hone]
      exact (h.told j).append_right _
    · rw [if_neg hj]
      exact (h.told j).trans (List.sublist_append_left _ _)
  · have hheard := h.entries j k' hj
    rw [saidTo_of_none hnone] at hheard
    show Heard steady k' (saidTo { n.setLink k _ with
        said := n.said ++ [.client k packet] } j) (n.joined k')
      ((n.setLink k _).service.connection k').voice.1
    rw [hconn, saidTo_of_none (n := { n.setLink k _ with
      said := n.said ++ [.client k packet] }) hnone]
    by_cases hk : k' = k
    · subst hk
      rw [if_pos rfl]
      exact hheard.said (if_pos rfl)
    · rw [if_neg hk]
      exact hheard.skip (if_neg (Ne.symm hk))

/-- A step of a link that the server's end has no part in. -/
theorem Announced.setLink (h : Announced steady n) {l : Link}
    (hvoice : (l.conn .server).voice = (n.service.connection k).voice) :
    Announced steady (n.setLink k l) := by
  refine h.of_same rfl rfl rfl (fun j => ?_) rfl rfl
  show (Function.update n.service.connection k _ j).voice = _
  by_cases hj : j = k
  · subst hj
    rw [Function.update_self]
    exact hvoice
  · rw [Function.update_of_ne hj]

theorem announced_step (h : Announced steady n)
    (hsorted : Sorted host ids clientHost clientIds n)
    (hg : steady → Steady n a)
    (hs : step host ids clientHost clientIds a n = some n') :
    Announced steady n' := by
  cases a with
  | connect approved initPacket now => exact h.connect hs
  | server b =>
      obtain ⟨service, hb, hservice, rfl⟩ := of_server hs
      exact h.server hsorted hg hb hservice
  | send k packet => exact h.send hs
  | client k b =>
      obtain ⟨-, l, hl, rfl⟩ := of_linkStep hs
      refine h.setLink ?_
      rw [server_client hl]
      rfl
  | arrive k side m =>
      obtain ⟨-, l, hl, rfl⟩ := of_linkStep hs
      obtain ⟨bytes, hconn⟩ := server_arrive hl
      refine h.setLink ?_
      rw [hconn]
      rfl

-- =============================================================== results

theorem announced_run {acts : List Action}
    (hg : steady → Lts.Meets (step host ids clientHost clientIds) Steady
      start acts)
    (hrun : Lts.run (step host ids clientHost clientIds) start acts
      = some n) :
    Announced steady n ∧ Sorted host ids clientHost clientIds n := by
  have hinv : ∀ n a n', (Announced steady n
        ∧ Sorted host ids clientHost clientIds n) →
      (steady → Steady n a) →
      step host ids clientHost clientIds a n = some n' →
      Announced steady n' ∧ Sorted host ids clientHost clientIds n' :=
    fun n a n' h hg hs =>
      ⟨announced_step h.1 h.2 hg hs, sorted_step h.2 hs⟩
  by_cases hsteady : steady
  · exact Lts.run_invariant_of_meets _
      (fun n a n' h ha hs => hinv n a n' h (fun _ => ha) hs)
      ⟨announced_start, sorted_start⟩ (hg hsteady) hrun
  · exact Lts.run_invariant _
      (fun n a n' h hs => hinv n a n' h (fun h => absurd h hsteady) hs)
      ⟨announced_start, sorted_start⟩ hrun

/-- What fits is sent in frames that fit. -/
theorem Announced.fits (h : Announced steady n)
    (hfit : ∀ packet ∈ addressed k n.said,
      (Connection.bodyOf packet).length ≤ 65535) :
    ∀ call ∈ (n.service.connection k).sent,
      (Connection.bodyOf call.packet).length ≤ 65535 :=
  fun call hcall => hfit call.packet ((h.told k).subset
    (List.mem_map_of_mem (f := SendCall.packet) hcall))

/-- Who has an entry has been sent all that was said to it. -/
theorem Announced.sent_eq (h : Announced True n)
    (hidle : n.service.task.isIdle = true)
    (hk : some k ∈ n.service.mConnections) :
    (n.service.connection k).sent.map (·.packet)
      = addressed k (n.said.drop (n.joined k)) := by
  obtain ⟨j, hj⟩ := List.mem_iff_getElem?.mp hk
  obtain ⟨-, hheard⟩ := h.entries j k hj
  rw [saidTo_of_none (Service.announcing_of_idle hidle)] at hheard
  exact (hheard trivial).2

/-- And has received it, once nothing is under way. -/
theorem Announced.received_eq (h : Announced True n)
    (hsorted : Sorted host ids clientHost clientIds n)
    (hidle : n.service.task.isIdle = true)
    (hk : some k ∈ n.service.mConnections)
    (hfit : ∀ packet ∈ addressed k n.said,
      (Connection.bodyOf packet).length ≤ 65535)
    (hquiet : Link.Quiet (n.link k) .client) :
    (n.peer k).mMessagesIn.map (·.second.header)
      = (addressed k (n.said.drop (n.joined k))).map fun packet =>
          ⟨packet.id, PacketFlags.none,
            UInt16.ofNat (Connection.bodyOf packet).length⟩ := by
  obtain ⟨j, hj⟩ := List.mem_iff_getElem?.mp hk
  have hall := (hsorted.attached k (seen_of_entry hj)).joined.received_all
    hquiet (h.fits hfit)
  rw [← h.sent_eq hidle hk]
  show (n.peer k).mMessagesIn.map _
    = ((n.service.connection k).sent.map (·.packet)).map _
  rw [List.map_map]
  exact hall

/-- What a client receives is a part of what the server's program had
said to it or to all, in the order in which the program said it: no two
clients get two announcements in two orders, and nobody gets one twice or
one that was not for it. The bodies have to fit, and only one that is not
empty need be the body that is received. -/
theorem hears_in_order (acts : List Action)
    (hrun : Lts.run (step host ids clientHost clientIds) start acts = some n)
    (hk : some k ∈ n.service.seen)
    (hfit : ∀ packet ∈ addressed k n.said,
      (Connection.bodyOf packet).length ≤ 65535) :
    ∃ told : List IPacket, told.Sublist (addressed k n.said)
      ∧ ∀ (i : Nat) (m : OwnedMessage), (n.peer k).mMessagesIn[i]? = some m →
        ∃ packet, told[i]? = some packet
          ∧ m.second.header = ⟨packet.id, PacketFlags.none,
              UInt16.ofNat (Connection.bodyOf packet).length⟩
          ∧ (Connection.bodyOf packet ≠ [] →
              m.second.body.bytes = Connection.bodyOf packet) := by
  obtain ⟨h, hsorted⟩ := @announced_run _ _ _ _ n False acts False.elim hrun
  refine ⟨_, h.told k, fun i m hm => ?_⟩
  obtain ⟨call, hcall, hheader, hbody⟩ := @Link.Joined.message _ _ _ .client
    (hsorted.attached k hk).joined (h.fits hfit) i m hm
  refine ⟨call.packet, ?_, hheader, fun hne => hbody.mpr (.inl hne)⟩
  show (List.map _ (n.service.connection k).sent)[i]? = _
  rw [List.getElem?_map]
  exact congrArg (Option.map SendCall.packet) hcall

/-- As long as no `Send` of a loop throws, whoever is in the container
has between operations been sent all that was said to it or to all since
it was accepted; and once nothing is under way to it, it has received
each of these under its own header. The bodies have to fit. -/
theorem reaches_everyone (acts : List Action)
    (hsteady : Lts.Meets (step host ids clientHost clientIds) Steady start
      acts)
    (hrun : Lts.run (step host ids clientHost clientIds) start acts = some n)
    (hidle : n.service.task.isIdle = true)
    (hk : some k ∈ n.service.mConnections)
    (hfit : ∀ packet ∈ addressed k n.said,
      (Connection.bodyOf packet).length ≤ 65535) :
    (n.service.connection k).sent.map (·.packet)
        = addressed k (n.said.drop (n.joined k))
      ∧ (Link.Quiet (n.link k) .client →
        (n.peer k).mMessagesIn.map (·.second.header)
          = (addressed k (n.said.drop (n.joined k))).map fun packet =>
              ⟨packet.id, PacketFlags.none,
                UInt16.ofNat (Connection.bodyOf packet).length⟩) := by
  obtain ⟨h, hsorted⟩ := @announced_run _ _ _ _ n True acts
    (fun _ => hsteady) hrun
  exact ⟨h.sent_eq hidle hk, h.received_eq hsorted hidle hk hfit⟩

/-- Where the run of `conversing` leaves the first client. -/
theorem conversing_heard :
    ∃ n, Lts.run (step .little ⟨1, 5⟩ (fun _ => .little) fun _ => ⟨1, 5⟩)
        start conversing = some n
      ∧ n.service.task.isIdle = true ∧ n.service.mConnections = [some 0, some 1]
      ∧ n.service.seen = [some 0, some 1]
      ∧ (n.peer 0).mMessagesIn
        = [⟨none, ⟨⟨3, 0, 8⟩, ⟨[7, 0, 0, 0, 0, 0, 0, 0], 0⟩⟩⟩]
      ∧ (∀ packet ∈ addressed 0 n.said,
          Connection.bodyOf packet = [7, 0, 0, 0, 0, 0, 0, 0])
      ∧ Link.Quiet (n.link 0) .client := by
  have hend : (Lts.run (step .little ⟨1, 5⟩ (fun _ => .little)
      fun _ => ⟨1, 5⟩) start conversing).map (fun n => decide
        (n.service.task.isIdle = true
          ∧ n.service.mConnections = [some 0, some 1]
          ∧ n.service.seen = [some 0, some 1]
          ∧ (n.peer 0).mMessagesIn
            = [⟨none, ⟨⟨3, 0, 8⟩, ⟨[7, 0, 0, 0, 0, 0, 0, 0], 0⟩⟩⟩]
          ∧ (∀ packet ∈ addressed 0 n.said,
              Connection.bodyOf packet = [7, 0, 0, 0, 0, 0, 0, 0])
          ∧ (n.service.connection 0).mMessagesOut = []
          ∧ (n.service.connection 0).queued = []
          ∧ n.arrived 0 .client = (n.service.connection 0).handed.length
          ∧ (n.peer 0).incoming = [] ∧ (n.peer 0).reads = [.header]))
      = some true := by
    decide +kernel
  obtain ⟨n, hrun, hn⟩ := Option.map_eq_some_iff.mp hend
  obtain ⟨hidle, hentries, hseen, hmsgs, hbody, hout, hqueued, harrived, hin,
    hreads⟩ := of_decide_eq_true hn
  exact ⟨n, hrun, hidle, hentries, hseen, hmsgs, hbody,
    ⟨⟨hout, hqueued⟩, harrived, hin, hreads⟩⟩

/-- The first client has received what was announced. -/
theorem hears_in_order_two :
    ∃ (n : Network) (told : List IPacket) (packet : IPacket),
      Lts.run (step .little ⟨1, 5⟩ (fun _ => .little) fun _ => ⟨1, 5⟩) start
        conversing = some n
      ∧ told.Sublist (addressed 0 n.said) ∧ told[0]? = some packet
      ∧ packet.id = 3 := by
  obtain ⟨n, hrun, -, -, hseen, hmsgs, hbody, -⟩ := conversing_heard
  have hfit : ∀ packet ∈ addressed 0 n.said,
      (Connection.bodyOf packet).length ≤ 65535 := by
    intro packet hmem
    rw [hbody packet hmem]
    decide
  obtain ⟨told, htold, hmsg⟩ := @hears_in_order _ _ _ _ n 0 conversing hrun
    (by rw [hseen]; simp) hfit
  obtain ⟨packet, hpacket, hheader, -⟩ := hmsg 0
    ⟨none, ⟨⟨3, 0, 8⟩, ⟨[7, 0, 0, 0, 0, 0, 0, 0], 0⟩⟩⟩ (by rw [hmsgs]; rfl)
  exact ⟨n, told, packet, hrun, htold, hpacket,
    (congrArg PacketHeader.id hheader).symm⟩

/-- It has been sent all that was said since it came, and received it. -/
theorem reaches_everyone_two :
    ∃ n, Lts.run (step .little ⟨1, 5⟩ (fun _ => .little) fun _ => ⟨1, 5⟩)
        start conversing = some n
      ∧ (n.service.connection 0).sent.map (·.packet)
        = addressed 0 (n.said.drop (n.joined 0))
      ∧ (addressed 0 (n.said.drop (n.joined 0))).length = 1 := by
  obtain ⟨n, hrun, hidle, hentries, -, hmsgs, hbody, hquiet⟩ :=
    conversing_heard
  have hfit : ∀ packet ∈ addressed 0 n.said,
      (Connection.bodyOf packet).length ≤ 65535 := by
    intro packet hmem
    rw [hbody packet hmem]
    decide
  have hsteady : Lts.Meets (step .little ⟨1, 5⟩ (fun _ => .little)
      fun _ => ⟨1, 5⟩) Steady start conversing := by
    decide +kernel
  obtain ⟨hsent, hall⟩ := @reaches_everyone _ _ _ _ n 0 conversing hsteady
    hrun hidle (by rw [hentries]; simp) hfit
  refine ⟨n, hrun, hsent, ?_⟩
  have hlen := congrArg List.length (hall hquiet)
  rw [hmsgs, List.length_map, List.length_map] at hlen
  exact hlen.symm

end Network

end AWEnginePacket
