/-
`Send_AllClients()`, and what a callback may do with it.

# The broadcast

Where every entry of `m_Connections` is connected or connecting the
callback is not called, and the message is posted once to every entry
that is connected and not ignored (`sendAllClients_live`,
`posted_deliveries`).

# From the callback

The callback runs before the dead entry is reset, so a broadcast inside
it meets the same entry, which is still dead, and calls back again.
With a dead entry no call returns however deep the stack is
(`sendAllClients_gone`); without one the callback is never called.
-/
import AWEnginePacket.Proofs.Program

namespace AWEnginePacket

open Endian (ByteOrder)
open Effect

-- ============================================================== deliveries

namespace PacketServer

/-- What `Send_AllClients()` takes for disconnected. -/
def gone (q : PacketServer) : Option Nat → Bool
  | none => true
  | some k =>
      !(q.connection k).isConnected && !(q.connection k).isConnecting

/-- What `Send_AllClients()` sends to. -/
def reached (q : PacketServer) (ignoredClient : Option Nat) :
    Option Nat → Bool
  | none => false
  | some k => (q.connection k).isConnected && (some k != ignoredClient)

/-- The entries are the same, and what each connection is. -/
structure Alike (q q' : PacketServer) : Prop where
  mConnections : q'.mConnections = q.mConnections
  isConnected : ∀ k,
    (q'.connection k).isConnected = (q.connection k).isConnected
  isConnecting : ∀ k,
    (q'.connection k).isConnecting = (q.connection k).isConnecting

variable {q q' q'' : PacketServer}

theorem Alike.refl (q : PacketServer) : Alike q q :=
  ⟨rfl, fun _ => rfl, fun _ => rfl⟩

theorem Alike.trans (h : Alike q q') (h' : Alike q' q'') : Alike q q'' :=
  ⟨h'.mConnections.trans h.mConnections,
    fun k => (h'.isConnected k).trans (h.isConnected k),
    fun k => (h'.isConnecting k).trans (h.isConnecting k)⟩

theorem Alike.gone (h : Alike q q') (p : Option Nat) :
    q'.gone p = q.gone p := by
  cases p with
  | none => rfl
  | some k =>
      rw [PacketServer.gone, PacketServer.gone, h.isConnected,
        h.isConnecting]

theorem Alike.reached (h : Alike q q') (ignoredClient p : Option Nat) :
    q'.reached ignoredClient p = q.reached ignoredClient p := by
  cases p with
  | none => rfl
  | some k =>
      rw [PacketServer.reached, PacketServer.reached, h.isConnected]

variable (host : ByteOrder) (ids : PacketIDs) (packet : IPacket)
  (body : PacketBuffer) (ignoredClient : Option Nat)

/-- The server when an entry has been sent to that is to be. -/
def delivered (q : PacketServer) : Option Nat → PacketServer
  | none => q
  | some k =>
      if q.reached ignoredClient (some k) then
        let info := Connection.makeInfo host packet body
        let connection := after (Connection.post ⟨packet, info⟩)
          (Connection.remembered host ids (q.connection k) info)
        { q with connection := Function.update q.connection k connection }
      else q

variable {host ids packet body ignoredClient}

theorem delivered_of_not_reached {p : Option Nat}
    (h : q.reached ignoredClient p = false) :
    delivered host ids packet body ignoredClient q p = q := by
  cases p with
  | none => rfl
  | some k => rw [delivered, if_neg (by rw [h]; exact Bool.false_ne_true)]

/-- What sending to one connection leaves alone there, it leaves alone
everywhere. -/
theorem update_alike {α : Type} (f : Connection → α) {k : Nat}
    {connection : Connection} (h : f connection = f (q.connection k))
    (j : Nat) :
    f (Function.update q.connection k connection j) = f (q.connection j) := by
  by_cases hj : j = k
  · subst hj
    rw [Function.update_self, h]
  · rw [Function.update_of_ne hj]

variable (host ids packet body ignoredClient) in
/-- Sending leaves the container and the sockets alone. -/
theorem alike_delivered (q : PacketServer) (p : Option Nat) :
    Alike q (delivered host ids packet body ignoredClient q p) := by
  cases hreached : q.reached ignoredClient p with
  | false =>
      rw [delivered_of_not_reached hreached]
      exact .refl q
  | true =>
      cases p with
      | none => exact .refl q
      | some k =>
          have hposts := Connection.remembered_posts host ids
            (q.connection k) (Connection.makeInfo host packet body)
          rw [delivered, if_pos hreached]
          exact ⟨rfl, update_alike (·.isConnected) hposts.isConnected,
            update_alike (·.isConnecting) hposts.isConnecting⟩

variable (host ids packet body ignoredClient) in
/-- What is posted where. -/
theorem posted_delivered (q : PacketServer) (p : Option Nat) (k : Nat) :
    ((delivered host ids packet body ignoredClient q p).connection k).posted
      = (q.connection k).posted ++ List.replicate
          (if q.reached ignoredClient (some k) then [p].count (some k) else 0)
          (.queueMessage (Connection.makeInfo host packet body)) := by
  cases p with
  | none =>
      have hnone : [(none : Option Nat)].count (some k) = 0 := rfl
      rw [hnone, ite_self, List.replicate_zero, List.append_nil]
      rfl
  | some j =>
      by_cases hj : k = j
      · subst hj
        rw [List.count_singleton_self]
        cases hreached : q.reached ignoredClient (some k) with
        | false =>
            rw [delivered_of_not_reached hreached,
              if_neg Bool.false_ne_true, List.replicate_zero,
              List.append_nil]
        | true =>
            rw [delivered, if_pos hreached, if_pos rfl]
            dsimp only
            rw [Function.update_self]
            have hposts := Connection.remembered_posts host ids
              (q.connection k) (Connection.makeInfo host packet body)
            have hposted := hposts.posted
            rw [List.map_nil, List.append_nil] at hposted
            show (Connection.remembered host ids _ _).posted ++ _ = _
            rw [hposted]
            rfl
      · have hcount : [some j].count (some k) = 0 := by
          apply List.count_eq_zero_of_not_mem
          intro hmem
          rw [List.mem_singleton, Option.some.injEq] at hmem
          exact hj hmem
        rw [hcount, ite_self, List.replicate_zero, List.append_nil, delivered]
        split
        · dsimp only
          rw [Function.update_of_ne hj]
        · rfl

variable (host ids packet body ignoredClient) in
theorem alike_deliveries (ps : List (Option Nat)) (q : PacketServer) :
    Alike q (ps.foldl (delivered host ids packet body ignoredClient) q) := by
  induction ps generalizing q with
  | nil => exact .refl q
  | cons p ps ih =>
      exact (alike_delivered host ids packet body ignoredClient q p).trans
        (ih _)

variable (host ids packet body ignoredClient) in
theorem posted_deliveries (ps : List (Option Nat)) (q : PacketServer)
    (k : Nat) :
    ((ps.foldl (delivered host ids packet body ignoredClient) q).connection
        k).posted
      = (q.connection k).posted ++ List.replicate
          (if q.reached ignoredClient (some k) then ps.count (some k) else 0)
          (.queueMessage (Connection.makeInfo host packet body)) := by
  induction ps generalizing q with
  | nil =>
      rw [List.count_nil, ite_self, List.replicate_zero, List.append_nil]
      rfl
  | cons p ps ih =>
      have halike := alike_delivered host ids packet body ignoredClient q p
      have hcount : (p :: ps).count (some k)
          = [p].count (some k) + ps.count (some k) := by
        rw [← List.count_append, List.singleton_append]
      rw [List.foldl_cons, ih, posted_delivered, halike.reached,
        List.append_assoc, List.replicate_append_replicate, hcount]
      split
      · rfl
      · rfl

end PacketServer

namespace ServerProgram

variable {σ : Type} {host : ByteOrder} {ids : PacketIDs}
  {onClientDisconnect : Option (Option Nat → ProgramM σ PUnit)}
  {s : ServerProgram σ} {i : Nat} {p : Option Nat}

-- =========================================================== the broadcast

open PacketServer (Alike gone reached delivered)

variable {packet : IPacket} {ignoredClient : Option Nat} {body : PacketBuffer}

variable (host ids packet ignoredClient) in
/-- How sending to these entries ends: the message is with each of them
that is to have it, or the packet's `Write` threw at the first. -/
def broadcastEnd {α : Type} (a : α) (ps : List (Option Nat))
    (s : ServerProgram σ) : EStateM.Result Fault (ServerProgram σ) α :=
  match packet.write.run {} with
  | .ok _ body => .ok a { s with
      server := ps.foldl (delivered host ids packet body ignoredClient)
        s.server }
  | .error e _ =>
      if ps.any (s.server.reached ignoredClient) then .error e s else .ok a s

/-- Nobody is to have it. -/
theorem broadcastEnd_of_not_reached {α : Type} (a : α)
    (h : s.server.reached ignoredClient p = false) :
    broadcastEnd host ids packet ignoredClient a [p] s = .ok a s := by
  unfold broadcastEnd
  cases packet.write.run {} with
  | ok u body =>
      dsimp only
      rw [List.foldl_cons, PacketServer.delivered_of_not_reached h]
      rfl
  | error e b =>
      dsimp only
      rw [List.any_cons, h, Bool.false_or, List.any_nil,
        if_neg Bool.false_ne_true]

variable (host ids packet ignoredClient) in
/-- It ends well and the sockets are as they were, or everything is. -/
theorem broadcastEnd_cases {α : Type} (a : α) (ps : List (Option Nat))
    (s : ServerProgram σ) :
    (∃ s₁, broadcastEnd host ids packet ignoredClient a ps s = .ok a s₁
        ∧ Alike s.server s₁.server)
      ∨ ∃ e, broadcastEnd host ids packet ignoredClient a ps s
        = .error e s := by
  unfold broadcastEnd
  cases packet.write.run {} with
  | ok u body =>
      exact .inl ⟨_, rfl, PacketServer.alike_deliveries host ids packet body
        ignoredClient ps s.server⟩
  | error e b =>
      dsimp only
      split
      · exact .inr ⟨e, rfl⟩
      · exact .inl ⟨s, rfl, .refl _⟩

/-- One entry, then the others if it ended well. -/
theorem broadcastEnd_cons (a : Bool) (p : Option Nat)
    (ps : List (Option Nat)) (s : ServerProgram σ) :
    broadcastEnd host ids packet ignoredClient a (p :: ps) s
      = match broadcastEnd host ids packet ignoredClient a [p] s with
        | .ok _ s₁ => broadcastEnd host ids packet ignoredClient a ps s₁
        | .error e s₁ => .error e s₁ := by
  unfold broadcastEnd
  cases packet.write.run {} with
  | ok u body => rfl
  | error e b =>
      dsimp only
      rw [List.any_cons, List.any_cons, List.any_nil, Bool.or_false]
      cases hreached : s.server.reached ignoredClient p with
      | true => rfl
      | false => rfl

variable (host ids onClientDisconnect packet ignoredClient) in
/-- A visit to an entry that is connected or connecting. The callback is
not called. -/
theorem sendAt_live (hi : s.server.mConnections[i]? = some p)
    (hlive : s.server.gone p = false) :
    (sendAt host ids onClientDisconnect packet ignoredClient i).run s
      = broadcastEnd host ids packet ignoredClient false [p] s := by
  unfold sendAt
  rw [run_bind_of_ok (connectionAt_run hi), EStateM.run_bind,
    EStateM.run_get]
  cases p with
  | none => cases hlive
  | some k =>
      dsimp only
      cases hc : (s.server.connection k).isConnected with
      | false =>
          have hreached : s.server.reached ignoredClient (some k) = false := by
            rw [reached, hc]
            rfl
          rw [gone, hc, Bool.not_false, Bool.true_and,
            Bool.not_eq_false'] at hlive
          rw [if_neg Bool.false_ne_true, if_pos hlive,
            broadcastEnd_of_not_reached false hreached]
          rfl
      | true =>
          rw [if_pos rfl]
          by_cases hignored : some k = ignoredClient
          · have hreached : s.server.reached ignoredClient (some k) = false
                := by
              rw [reached, hignored, bne_self_eq_false, Bool.and_false]
            rw [if_neg (not_not.mpr hignored),
              broadcastEnd_of_not_reached false hreached]
            rfl
          · have hreached : s.server.reached ignoredClient (some k) = true
                := by
              rw [reached, hc, Bool.true_and, bne_iff_ne]
              exact hignored
            rw [if_pos hignored]
            have hprepare :=
              Connection.prepare_run host ids packet (s.server.connection k)
            rw [if_pos hc] at hprepare
            unfold broadcastEnd
            cases hw : packet.write.run {} with
            | ok u body =>
                rw [hw] at hprepare
                have hsend : (Connection.send host ids packet).run
                    (s.server.connection k) = .ok ⟨⟩ _ :=
                  run_bind_of_ok hprepare
                rw [run_bind_of_ok (onServer_of_ok
                  (PacketServer.onConnection_of_ok hsend))]
                dsimp only
                rw [List.foldl_cons, delivered, if_pos hreached]
                rfl
            | error e b =>
                dsimp only
                rw [List.any_cons, hreached, Bool.true_or, if_pos rfl]
                rw [hw] at hprepare
                have hsend : (Connection.send host ids packet).run
                    (s.server.connection k) = .error e _ :=
                  run_bind_of_error hprepare
                rw [run_bind_of_error (onServer_of_error
                  (PacketServer.onConnection_of_error hsend)),
                  Function.update_eq_self]

variable (host ids onClientDisconnect packet ignoredClient) in
/-- The loop over such entries. -/
theorem sendLoop_live (suf : List (Option Nat)) {pre : List (Option Nat)}
    (hs : s.server.mConnections = pre ++ suf)
    (hlive : ∀ p ∈ suf, s.server.gone p = false) :
    (forConnections
        (sendAt host ids onClientDisconnect packet ignoredClient)
        (List.range' pre.length suf.length)).run s
      = broadcastEnd host ids packet ignoredClient false suf s := by
  induction suf generalizing pre s with
  | nil =>
      unfold broadcastEnd
      cases packet.write.run {} with
      | ok u body => rfl
      | error e b => rfl
  | cons p suf ih =>
      have hone := sendAt_live host ids onClientDisconnect packet
        ignoredClient (PacketServer.entry_of_eq hs)
        (hlive p List.mem_cons_self)
      rw [List.length_cons, List.range'_succ, forConnections]
      rw [broadcastEnd_cons]
      rcases broadcastEnd_cases host ids packet ignoredClient false [p] s
        with ⟨s₁, hend, halike⟩ | ⟨e, hend⟩
      · have hnext : s₁.server.mConnections = (pre ++ [p]) ++ suf := by
          rw [halike.mConnections, hs, List.append_assoc]
          rfl
        have hlen : (pre ++ [p]).length = pre.length + 1 := by simp
        have hrest := ih hnext fun p' hp' => (halike.gone p').trans
          (hlive p' (List.mem_cons_of_mem _ hp'))
        rw [hlen] at hrest
        rw [hend, run_bind_of_ok (hone.trans hend)]
        dsimp only
        rcases broadcastEnd_cases host ids packet ignoredClient false suf s₁
          with ⟨s₂, hloop, -⟩ | ⟨e, hloop⟩
        · rw [run_bind_of_ok (hrest.trans hloop), hloop]
          rfl
        · rw [run_bind_of_error (hrest.trans hloop), hloop]
      · rw [hend]
        exact run_bind_of_error (hone.trans hend)

variable (host ids onClientDisconnect packet ignoredClient) in
/-- Where every entry is connected or connecting, the callback makes no
difference. -/
theorem sendAllClients_live
    (hlive : ∀ p ∈ s.server.mConnections, s.server.gone p = false) :
    (sendAllClients host ids onClientDisconnect packet ignoredClient).run s
      = broadcastEnd host ids packet ignoredClient ⟨⟩ s.server.mConnections
          s := by
  have hloop := sendLoop_live host ids onClientDisconnect packet
    ignoredClient s.server.mConnections
    (List.nil_append s.server.mConnections).symm hlive
  rw [List.length_nil, ← List.range_eq_range'] at hloop
  rw [sendAllClients, EStateM.run_bind, EStateM.run_get]
  unfold broadcastEnd at hloop ⊢
  dsimp only
  cases hw : packet.write.run {} with
  | ok u body =>
      rw [hw] at hloop
      rw [run_bind_of_ok hloop]
      rfl
  | error e b =>
      rw [hw] at hloop
      dsimp only at hloop ⊢
      split at hloop
      · rename_i hany
        rw [run_bind_of_error hloop, if_pos hany]
      · rename_i hany
        rw [run_bind_of_ok hloop, if_neg hany]
        rfl

-- ==================================================== calls from the callback

variable {announcement : Option Nat → IPacket}
  {ignored : Option Nat → Option Nat} {q : PacketServer}

/-- A callback that never returns and leaves the container alone, as
long as the sockets are as in `q`. -/
def Traps (q : PacketServer) (callback : Option Nat → ProgramM σ PUnit) :
    Prop :=
  ∀ p s, Alike q s.server → ∃ e t, (callback p).run s = .error e t
    ∧ t.server.mConnections = q.mConnections

variable {callback : Option Nat → ProgramM σ PUnit}

variable (host ids packet ignoredClient) in
/-- The visit to a dead entry does not get past the callback. -/
theorem sendAt_gone (htraps : Traps q callback) (halike : Alike q s.server)
    (hi : s.server.mConnections[i]? = some p)
    (hgone : s.server.gone p = true) :
    ∃ e t, (sendAt host ids (some callback) packet ignoredClient i).run s
        = .error e t
      ∧ t.server.mConnections = q.mConnections := by
  obtain ⟨e, t, hcall, ht⟩ := htraps p s halike
  have hdrop : (do
      dropAt (some callback) i p
      pure true : ProgramM σ Bool).run s = .error e t :=
    run_bind_of_error (run_bind_of_error hcall)
  refine ⟨e, t, ?_, ht⟩
  unfold sendAt
  rw [run_bind_of_ok (connectionAt_run hi), EStateM.run_bind,
    EStateM.run_get]
  cases p with
  | none => exact hdrop
  | some k =>
      rw [gone, Bool.and_eq_true, Bool.not_eq_true', Bool.not_eq_true']
        at hgone
      dsimp only
      rw [hgone.1, hgone.2, if_neg Bool.false_ne_true,
        if_neg Bool.false_ne_true]
      exact hdrop

variable (host ids packet ignoredClient) in
/-- Nor does the loop get past the first dead entry. -/
theorem sendLoop_gone (htraps : Traps q callback) (suf : List (Option Nat))
    {pre : List (Option Nat)} (halike : Alike q s.server)
    (hs : s.server.mConnections = pre ++ suf)
    (hgone : ∃ p ∈ suf, q.gone p = true) :
    ∃ e t, (forConnections
        (sendAt host ids (some callback) packet ignoredClient)
        (List.range' pre.length suf.length)).run s = .error e t
      ∧ t.server.mConnections = q.mConnections := by
  induction suf generalizing pre s with
  | nil =>
      obtain ⟨p, hp, -⟩ := hgone
      cases hp
  | cons p suf ih =>
      have hi := PacketServer.entry_of_eq hs
      rw [List.length_cons, List.range'_succ, forConnections]
      cases hp : q.gone p with
      | true =>
          rw [← halike.gone] at hp
          obtain ⟨e, t, hone, ht⟩ := sendAt_gone host ids packet
            ignoredClient htraps halike hi hp
          exact ⟨e, t, run_bind_of_error hone, ht⟩
      | false =>
          have hrest : ∃ p ∈ suf, q.gone p = true := by
            obtain ⟨p', hp', hgone'⟩ := hgone
            rcases List.mem_cons.mp hp' with rfl | hmem
            · rw [hp] at hgone'
              cases hgone'
            · exact ⟨p', hmem, hgone'⟩
          have hnext : s.server.mConnections = (pre ++ [p]) ++ suf := by
            rw [hs, List.append_assoc]
            rfl
          have hlen : (pre ++ [p]).length = pre.length + 1 := by simp
          rw [← halike.gone] at hp
          have hone := sendAt_live host ids (some callback) packet
            ignoredClient hi hp
          rcases broadcastEnd_cases host ids packet ignoredClient false [p] s
            with ⟨s₁, hend, halike₁⟩ | ⟨e, hend⟩
          · obtain ⟨e, t, hloop, ht⟩ := ih (halike.trans halike₁)
              (halike₁.mConnections.trans hnext) hrest
            rw [hlen] at hloop
            rw [run_bind_of_ok (hone.trans hend)]
            exact ⟨e, t, run_bind_of_error hloop, ht⟩
          · exact ⟨e, s, run_bind_of_error (hone.trans hend),
              halike.mConnections⟩

variable (host ids packet ignoredClient) in
/-- The method does not return either. -/
theorem sendAllClients_traps (htraps : Traps q callback)
    (halike : Alike q s.server) (hgone : ∃ p ∈ q.mConnections,
      q.gone p = true) :
    ∃ e t, (sendAllClients host ids (some callback) packet
        ignoredClient).run s = .error e t
      ∧ t.server.mConnections = q.mConnections := by
  rw [← halike.mConnections] at hgone
  obtain ⟨e, t, hloop, ht⟩ := sendLoop_gone host ids packet ignoredClient
    htraps s.server.mConnections halike
    (List.nil_append s.server.mConnections).symm hgone
  rw [List.length_nil, ← List.range_eq_range'] at hloop
  refine ⟨e, t, ?_, ht⟩
  rw [sendAllClients, EStateM.run_bind, EStateM.run_get]
  exact run_bind_of_error hloop

variable (host ids announcement ignored) in
/-- A callback that broadcasts never returns while an entry is dead: its
own broadcast meets that entry again, with less room on the stack. -/
theorem announcing_traps (hgone : ∃ p ∈ q.mConnections, q.gone p = true)
    (depth : Nat) :
    Traps q (announcing host ids announcement ignored depth) := by
  induction depth with
  | zero =>
      intro p s halike
      exact ⟨stackOverflow, s, rfl, halike.mConnections⟩
  | succ depth ih =>
      intro p s halike
      exact sendAllClients_traps host ids (announcement p) (ignored p)
        (s := { s with user := s.user ++ [p] }) ih halike hgone

variable (host ids announcement ignored) in
/-- With a dead entry a broadcast ends in an exception and drops
nothing, however much room there is. -/
theorem sendAllClients_gone
    (hgone : ∃ p ∈ q.mConnections, q.gone p = true) (packet : IPacket)
    (ignoredClient : Option Nat) (depth : Nat)
    (calls : List (Option Nat)) :
    ∃ e t, (sendAllClients host ids
        (some (announcing host ids announcement ignored depth)) packet
        ignoredClient).run ⟨q, calls⟩ = .error e t
      ∧ t.server.mConnections = q.mConnections :=
  sendAllClients_traps host ids packet ignoredClient
    (announcing_traps host ids announcement ignored hgone depth)
    (.refl q) hgone

/-- A broadcast with a callback that broadcasts is safe: given enough
room it ends, and how does not depend on the room; by then the callback
has been called once for each dead entry, and `m_Connections` holds the
others. -/
def Safe (host : ByteOrder) (ids : PacketIDs)
    (announcement : Option Nat → IPacket)
    (ignored : Option Nat → Option Nat) (packet : IPacket)
    (ignoredClient : Option Nat) (q : PacketServer) : Prop :=
  ∃ enough calls q', (∀ depth, enough ≤ depth →
      after (sendAllClients host ids
        (some (announcing host ids announcement ignored depth)) packet
        ignoredClient) ⟨q, []⟩ = ⟨q', calls⟩)
    ∧ calls.Perm (q.mConnections.filter q.gone)
    ∧ q'.mConnections = q.mConnections.filter fun p => !q.gone p

theorem not_safe_of_gone (hgone : ∃ p ∈ q.mConnections, q.gone p = true) :
    ¬ Safe host ids announcement ignored packet ignoredClient q := by
  rintro ⟨enough, calls, q', hends, -, hq'⟩
  obtain ⟨e, t, hrun, ht⟩ := sendAllClients_gone host ids announcement
    ignored hgone packet ignoredClient enough []
  have hend := hends enough (Nat.le_refl _)
  rw [after_of_error hrun] at hend
  rw [hend, hq'] at ht
  -- the dead entry is still there
  obtain ⟨p, hp, hdead⟩ := hgone
  rw [← ht] at hp
  have hkept := (List.mem_filter.mp hp).2
  rw [hdead] at hkept
  cases hkept

/-- It is safe if and only if there is nobody to announce. -/
theorem broadcast_safe_iff (host : ByteOrder) (ids : PacketIDs)
    (announcement : Option Nat → IPacket)
    (ignored : Option Nat → Option Nat) (packet : IPacket)
    (ignoredClient : Option Nat) (q : PacketServer) :
    Safe host ids announcement ignored packet ignoredClient q
      ↔ ∀ p ∈ q.mConnections, q.gone p = false := by
  constructor
  · intro hsafe p hp
    by_contra hgone
    rw [Bool.not_eq_false] at hgone
    exact not_safe_of_gone ⟨p, hp, hgone⟩ hsafe
  · intro hlive
    have hcalls : q.mConnections.filter q.gone = [] := by
      rw [List.filter_eq_nil_iff]
      intro p hp
      rw [hlive p hp]
      exact Bool.false_ne_true
    have hall : q.mConnections.filter (fun p => !q.gone p) = q.mConnections
        := by
      rw [List.filter_eq_self]
      intro p hp
      rw [hlive p hp]
      rfl
    have hrun (depth : Nat) := sendAllClients_live host ids
      (some (announcing host ids announcement ignored depth)) packet
      ignoredClient (s := ⟨q, []⟩) hlive
    unfold broadcastEnd at hrun
    cases hw : packet.write.run {} with
    | ok u body =>
        rw [hw] at hrun
        refine ⟨0, [], _, fun depth _ => after_of_ok (hrun depth), ?_, ?_⟩
        · rw [hcalls]
        · rw [hall]
          exact (PacketServer.alike_deliveries host ids packet body
            ignoredClient q.mConnections q).mConnections
    | error e b =>
        rw [hw] at hrun
        refine ⟨0, [], q, fun depth _ => ?_, ?_, hall.symm⟩
        · have hend := hrun depth
          dsimp only at hend
          split at hend
          · exact after_of_error hend
          · exact after_of_ok hend
        · rw [hcalls]

/-- One closed connection: every announcement of its end announces it
again. -/
theorem broadcast_one_closed :
    ¬ Safe .little ⟨1, 2⟩ (fun _ => ⟨5, pure ⟨⟩⟩) (fun _ => none)
      ⟨5, pure ⟨⟩⟩ none ⟨[some 0], fun k => .create k .toClient false [] 0⟩
      :=
  not_safe_of_gone ⟨some 0, List.mem_singleton_self _, rfl⟩

end ServerProgram

end AWEnginePacket
