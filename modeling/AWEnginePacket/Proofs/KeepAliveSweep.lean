/-
`SendKeepAlive()` with a callback that keeps notes.

With a callback that returns and does nothing to the server, it keeps
exactly the connections in time, tells the callback of every other one
once, in order, and posts one and the same ping to every connected entry
it keeps (`sendKeepAlive_sweeps`).
-/
import AWEnginePacket.Proofs.Broadcast
import AWEnginePacket.Proofs.Session

namespace AWEnginePacket

open Endian (ByteOrder leBytes)
open Effect

namespace PacketServer

-- =============================================================== verdicts

variable {q : PacketServer}

/-- What `SendKeepAlive()` keeps: a connection that is connected or
connecting and whose last KeepAlive is not too old. -/
def stays (q : PacketServer) (now : TimePoint) : Option Nat → Bool
  | none => false
  | some k =>
      ((q.connection k).isConnected || (q.connection k).isConnecting)
        && decide (now - keepAliveMaxDelay ≤ (q.connection k).mLastKeepAlive)

theorem isDead_eq (q : PacketServer) (now : TimePoint) (p : Option Nat) :
    isDead (now - keepAliveMaxDelay) q p = !q.stays now p := by
  cases p with
  | none => rfl
  | some k =>
      have hle : decide ((q.connection k).mLastKeepAlive
            < now - keepAliveMaxDelay)
          = !decide (now - keepAliveMaxDelay
            ≤ (q.connection k).mLastKeepAlive) := by
        rw [← decide_not, decide_eq_decide]
        exact Int.not_le.symm
      rw [stays, Bool.not_and, Bool.not_or, ← hle]
      rfl

theorem gone_of_stays (q : PacketServer) {now : TimePoint}
    {p : Option Nat} (h : q.stays now p = true) : q.gone p = false := by
  cases p with
  | none => cases h
  | some k =>
      rw [stays, Bool.and_eq_true] at h
      rw [gone, ← Bool.not_or, h.1]
      rfl

/-- Resetting the dead entries and erasing them if there were any. -/
theorem erased_swept (oldestKeepAlive : TimePoint) (q : PacketServer)
    (l : List (Option Nat)) :
    (if l.any (isDead oldestKeepAlive q) then
        (l.map (swept oldestKeepAlive q)).filter (·.isSome)
      else l.map (swept oldestKeepAlive q))
      = l.filter fun p => !isDead oldestKeepAlive q p := by
  have hfilter : (l.map (swept oldestKeepAlive q)).filter (·.isSome)
      = l.filter fun p => !isDead oldestKeepAlive q p := by
    induction l with
    | nil => rfl
    | cons p l ih =>
        rw [List.map_cons, List.filter_cons, List.filter_cons, ih, swept]
        cases hdead : isDead oldestKeepAlive q p with
        | true => rfl
        | false =>
            cases p with
            | none => cases hdead
            | some k => rfl
  split
  · exact hfilter
  · rename_i hnone
    rw [← hfilter, eq_comm, List.filter_eq_self]
    intro p hp
    obtain ⟨p', hp', rfl⟩ := List.mem_map.mp hp
    have hlive : isDead oldestKeepAlive q p' = false := by
      by_contra hdead
      rw [Bool.not_eq_false] at hdead
      exact hnone (List.any_eq_true.mpr ⟨p', hp', hdead⟩)
    rw [swept, hlive, if_neg Bool.false_ne_true]
    cases p' with
    | none => cases hlive
    | some k => rfl

end PacketServer

namespace ServerProgram

variable {σ : Type} {host : ByteOrder} {ids : PacketIDs}
  {onClientDisconnect : Option (Option Nat → ProgramM σ PUnit)}
  {s : ServerProgram σ} {i : Nat} {p : Option Nat}

-- ============================================================== the sweep

/-- The callback returns, does nothing to the server, and does `f` to the
data; an empty `std::function` does nothing. -/
def Notes : Option (Option Nat → ProgramM σ PUnit) →
    (Option Nat → σ → σ) → Prop
  | none, f => ∀ p u, f p u = u
  | some callback, f =>
      ∀ p s, (callback p).run s = .ok ⟨⟩ { s with user := f p s.user }

variable {f : Option Nat → σ → σ}

theorem dropAt_run (hnotes : Notes onClientDisconnect f) (i : Nat)
    (p : Option Nat) (s : ServerProgram σ) :
    (dropAt onClientDisconnect i p).run s
      = .ok ⟨⟩ ⟨{ s.server with
          mConnections := s.server.mConnections.set i none }, f p s.user⟩ := by
  unfold dropAt
  cases onClientDisconnect with
  | none =>
      have hf : f p s.user = s.user := hnotes p s.user
      rw [hf]
      rfl
  | some callback =>
      rw [run_bind_of_ok (hnotes p s)]
      rfl

open PacketServer (isDead swept)

variable (oldestKeepAlive : TimePoint)

/-- What a visit of the first loop does: it replaces one entry, and
tells the user if it was dead. -/
theorem sweepAt_run (hnotes : Notes onClientDisconnect f)
    {pre suf : List (Option Nat)}
    (hs : s.server.mConnections = pre ++ p :: suf) :
    (sweepAt onClientDisconnect oldestKeepAlive pre.length).run s
      = .ok (isDead oldestKeepAlive s.server p)
        ⟨{ s.server with
            mConnections := pre ++ swept oldestKeepAlive s.server p :: suf },
          if isDead oldestKeepAlive s.server p then f p s.user
          else s.user⟩ := by
  have hat := connectionAt_run (PacketServer.entry_of_eq hs)
  unfold sweepAt
  rw [run_bind_of_ok hat, EStateM.run_bind, EStateM.run_get]
  dsimp only
  rw [swept]
  cases hdead : isDead oldestKeepAlive s.server p with
  | true =>
      rw [if_pos rfl, if_pos rfl, if_pos rfl,
        run_bind_of_ok (dropAt_run hnotes pre.length p s), hs,
        List.set_append_right _ _ (Nat.le_refl _), Nat.sub_self]
      rfl
  | false =>
      rw [if_neg Bool.false_ne_true, if_neg Bool.false_ne_true,
        if_neg Bool.false_ne_true, ← hs]
      rfl

/-- What the callback makes of the data, called for some connections in
order. -/
def told (f : Option Nat → σ → σ) (ps : List (Option Nat)) (u : σ) : σ :=
  ps.foldl (fun u p => f p u) u

/-- The whole loop replaces every entry, and tells the user of every
dead one. -/
theorem sweepLoop_run (hnotes : Notes onClientDisconnect f)
    (suf : List (Option Nat)) {pre : List (Option Nat)}
    (hs : s.server.mConnections = pre ++ suf) :
    (forConnections (sweepAt onClientDisconnect oldestKeepAlive)
        (List.range' pre.length suf.length)).run s
      = .ok (suf.any (isDead oldestKeepAlive s.server))
        ⟨{ s.server with
            mConnections := pre ++ suf.map (swept oldestKeepAlive s.server) },
          told f (suf.filter (isDead oldestKeepAlive s.server)) s.user⟩ := by
  induction suf generalizing pre s with
  | nil =>
      rw [List.append_nil] at hs
      rw [List.map_nil, List.append_nil, ← hs]
      rfl
  | cons p suf ih =>
      have hone := sweepAt_run oldestKeepAlive hnotes hs
      obtain ⟨l, hl⟩ : ∃ l, l = pre ++ [swept oldestKeepAlive s.server p] :=
        ⟨_, rfl⟩
      have hlen : l.length = pre.length + 1 := by simp [hl]
      have hcons : pre ++ swept oldestKeepAlive s.server p :: suf = l ++ suf
          := by
        rw [hl, List.append_assoc, List.singleton_append]
      obtain ⟨s₁, hs₁⟩ : ∃ s₁ : ServerProgram σ,
          s₁ = ⟨{ s.server with mConnections := l ++ suf },
            if isDead oldestKeepAlive s.server p then f p s.user
            else s.user⟩ := ⟨_, rfl⟩
      have hrest := @ih s₁ l (by rw [hs₁])
      -- the verdicts are about the connections behind the pointers
      have hsame : isDead oldestKeepAlive s₁.server
            = isDead oldestKeepAlive s.server
          ∧ swept oldestKeepAlive s₁.server
            = swept oldestKeepAlive s.server := by
        rw [hs₁]
        exact ⟨rfl, rfl⟩
      have htold : told f (suf.filter (isDead oldestKeepAlive s.server))
            s₁.user
          = told f ((p :: suf).filter (isDead oldestKeepAlive s.server))
            s.user := by
        rw [hs₁, List.filter_cons]
        cases isDead oldestKeepAlive s.server p with
        | true => rfl
        | false => rfl
      have hjoin : l ++ suf.map (swept oldestKeepAlive s.server)
          = pre ++ (p :: suf).map (swept oldestKeepAlive s.server) := by
        rw [hl, List.append_assoc]
        rfl
      rw [hlen, hsame.1, hsame.2, htold, hjoin] at hrest
      rw [hcons, ← hs₁] at hone
      rw [List.length_cons, List.range'_succ, forConnections,
        run_bind_of_ok hone, run_bind_of_ok hrest, hs₁]
      rfl

-- ============================================================= keep-alives

/-- The data is told of nobody else and the server keeps these entries:
the sweep of `SendKeepAlive()` as a whole. -/
theorem sweep_run (hnotes : Notes onClientDisconnect f) :
    (do
      let invalidClientExists ← forConnections
        (sweepAt onClientDisconnect oldestKeepAlive)
        (List.range s.server.mConnections.length)
      onServer (PacketServer.eraseNull invalidClientExists)
      : ProgramM σ PUnit).run s
      = .ok ⟨⟩ ⟨{ s.server with
          mConnections := s.server.mConnections.filter
            fun p => !isDead oldestKeepAlive s.server p },
        told f (s.server.mConnections.filter
          (isDead oldestKeepAlive s.server)) s.user⟩ := by
  have hloop := sweepLoop_run oldestKeepAlive hnotes s.server.mConnections
    (List.nil_append s.server.mConnections).symm
  rw [List.nil_append, List.length_nil, ← List.range_eq_range'] at hloop
  rw [run_bind_of_ok hloop]
  have herased := PacketServer.erased_swept oldestKeepAlive s.server
    s.server.mConnections
  cases hany : s.server.mConnections.any (isDead oldestKeepAlive s.server) with
  | true =>
      rw [hany, if_pos rfl] at herased
      rw [← herased]
      rfl
  | false =>
      rw [hany, if_neg Bool.false_ne_true] at herased
      rw [← herased]
      rfl

/-- `SendKeepAlive()` keeps the entries that are connected or connecting
and were heard of in time, in their order; it tells the user of every
other one once and of no other, in their order; and it posts one and the
same ping once to every entry it keeps that is connected. -/
theorem sendKeepAlive_sweeps (hnotes : Notes onClientDisconnect f)
    (s : ServerProgram σ) (now later : TimePoint) :
    let kept := s.server.mConnections.filter (s.server.stays now)
    let removed := s.server.mConnections.filter
      fun p => !s.server.stays now p
    ∃ q ping,
      (sendKeepAlive host ids onClientDisconnect now later).run s
        = .ok ⟨⟩ ⟨q, told f removed s.user⟩
      ∧ q.mConnections = kept
      ∧ ping.header.id = ids.keepAlive
      ∧ ping.body.bytes = leBytes 8 (Ping.create later).payload.toNat
      ∧ ∀ k, (q.connection k).posted = (s.server.connection k).posted
          ++ List.replicate (if (s.server.connection k).isConnected then
            kept.count (some k) else 0) (.queueMessage ping) := by
  intro kept removed
  have hdead : PacketServer.isDead (now - keepAliveMaxDelay) s.server
      = fun p => !s.server.stays now p :=
    funext (s.server.isDead_eq now)
  have hsweep := sweep_run (now - keepAliveMaxDelay) hnotes (s := s)
  simp only [hdead, Bool.not_not] at hsweep
  obtain ⟨invalidClientExists, s₁, hloop, herase⟩ := of_run_bind_ok hsweep
  obtain ⟨body, hbody, hbytes⟩ := @Connection.bodyOf_of_emits
    (Ping.toPacket host ids.keepAlive (Ping.create later)) _
    (PacketBuffer.emits_putInt host 8 _)
    (by rw [Endian.leBytes_length]; decide)
  rw [Connection.bodyOf, hbody] at hbytes
  obtain ⟨q₁, hq₁⟩ : ∃ q₁ : PacketServer,
      q₁ = { s.server with mConnections := kept } := ⟨_, rfl⟩
  have hlive : ∀ p ∈ q₁.mConnections, q₁.gone p = false := by
    rw [hq₁]
    intro p hp
    exact s.server.gone_of_stays (List.mem_filter.mp hp).2
  have hsend := sendAllClients_live host ids onClientDisconnect
    (Ping.toPacket host ids.keepAlive (Ping.create later)) none
    (s := ⟨q₁, told f removed s.user⟩) hlive
  rw [broadcastEnd, hbody] at hsend
  have hdeliveries := PacketServer.posted_deliveries host ids
    (Ping.toPacket host ids.keepAlive (Ping.create later)) body none
    q₁.mConnections q₁
  have halike := PacketServer.alike_deliveries host ids
    (Ping.toPacket host ids.keepAlive (Ping.create later)) body none
    q₁.mConnections q₁
  refine ⟨_, Connection.makeInfo host
    (Ping.toPacket host ids.keepAlive (Ping.create later)) body, ?_,
    halike.mConnections.trans (by rw [hq₁]), rfl, hbytes, fun k => ?_⟩
  · rw [sendKeepAlive, EStateM.run_bind, EStateM.run_get]
    dsimp only
    rw [run_bind_of_ok hloop, run_bind_of_ok herase]
    subst hq₁
    exact hsend
  · have hreached : q₁.reached none (some k)
        = (q₁.connection k).isConnected := Bool.and_true _
    rw [hdeliveries k, hreached, hq₁]

/-- A hundred seconds after the epoch: one connection in time, one that
has been closed, one that was last heard of at the epoch. -/
theorem sendKeepAlive_sweeps_three :
    let noting : Option Nat → ProgramM (List (Option Nat)) PUnit :=
      fun p => modify fun s => { s with user := s.user ++ [p] }
    let three : PacketServer := ⟨[some 0, some 1, some 2], fun k =>
      .create k .toClient (k != 1) [] (if k = 2 then 0 else 90000000000)⟩
    ∃ q ping,
      (sendKeepAlive .little ⟨1, 2⟩ (some noting) 100000000000
        100000000000).run ⟨three, []⟩ = .ok ⟨⟩ ⟨q, [some 1, some 2]⟩
      ∧ q.mConnections = [some 0]
      ∧ (q.connection 0).posted = [.queueMessage ping] := by
  intro noting three
  obtain ⟨q, ping, hrun, hkept, -, -, hposted⟩ :=
    @sendKeepAlive_sweeps _ .little ⟨1, 2⟩ (some noting)
      (fun p u => u ++ [p]) (fun p s => rfl) ⟨three, []⟩ 100000000000
      100000000000
  exact ⟨q, ping, hrun, hkept, hposted 0⟩

end ServerProgram

end AWEnginePacket
