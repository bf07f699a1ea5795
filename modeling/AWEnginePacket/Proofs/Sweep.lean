/-
`SendKeepAlive()` and the connections it drops.

The two loops over `m_Connections` only ever lose connections, and by
the time the first one is over every dead connection is lost
(`sendKeepAlive_drops`). A wrong payload makes a connection dead by
setting the time of its last KeepAlive to the epoch, and it stays dead
for as long as no right payload arrives (`wrong_pong_drops`).
-/
import AWEnginePacket.Model.Server
import AWEnginePacket.Proofs.KeepAlive

namespace AWEnginePacket

open Endian (ByteOrder)
open Effect

namespace PacketServer

variable {host : ByteOrder} {ids : PacketIDs}
  {onClientDisconnect : Option (Option Nat → ServerM PUnit)}
  {s s' : PacketServer} {oldestKeepAlive : TimePoint}

-- ============================================================ callbacks

/-- The user's callback returns, and does nothing to the server. -/
def Passive (onClientDisconnect : Option (Option Nat → ServerM PUnit)) :
    Prop :=
  ∀ callback ∈ onClientDisconnect, ∀ p s, (callback p).run s = .ok ⟨⟩ s

/-- An entry is reset where it stands, and nothing else is touched. -/
theorem dropAt_run (hpassive : Passive onClientDisconnect) (i : Nat)
    (p : Option Nat) (s : PacketServer) :
    (dropAt onClientDisconnect i p).run s
      = .ok ⟨⟩ { s with mConnections := s.mConnections.set i none } := by
  unfold dropAt
  cases onClientDisconnect with
  | none => rfl
  | some callback =>
      rw [run_bind_of_ok (hpassive callback rfl p s)]
      rfl

theorem connectionAt_run {i : Nat} {p : Option Nat}
    (hi : s.mConnections[i]? = some p) : (connectionAt i).run s = .ok p s := by
  unfold connectionAt
  rw [EStateM.run_bind, EStateM.run_get]
  dsimp only
  rw [hi]
  rfl

section onConnection

variable {k : Nat} {m : ConnM PUnit} {c : Connection} {u : PUnit} {e : Fault}

/-- A method called on one connection leaves the others as they are. -/
theorem onConnection_of_ok (h : m.run (s.connection k) = .ok u c) :
    (onConnection k m).run s
      = .ok ⟨⟩ { s with connection := Function.update s.connection k c } := by
  show onConnection k m s = _
  rw [onConnection, h]

theorem onConnection_of_error (h : m.run (s.connection k) = .error e c) :
    (onConnection k m).run s = .error e
      { s with connection := Function.update s.connection k c } := by
  show onConnection k m s = _
  rw [onConnection, h]

end onConnection

-- ================================================================ loops

/-- What the first loop of `SendKeepAlive()` makes of an entry. -/
def swept (oldestKeepAlive : TimePoint) (s : PacketServer)
    (p : Option Nat) : Option Nat :=
  if isDead oldestKeepAlive s p then none else p

/-- The entry a loop has come to. -/
theorem entry_of_eq {l pre suf : List (Option Nat)} {p : Option Nat}
    (hl : l = pre ++ p :: suf) : l[pre.length]? = some p := by
  rw [hl, List.getElem?_append_right (Nat.le_refl _), Nat.sub_self]
  rfl

variable (oldestKeepAlive) in
/-- One visit replaces one entry. -/
theorem sweepAt_run (hpassive : Passive onClientDisconnect)
    {pre suf : List (Option Nat)} {p : Option Nat}
    (hs : s.mConnections = pre ++ p :: suf) :
    (sweepAt onClientDisconnect oldestKeepAlive pre.length).run s
      = .ok (isDead oldestKeepAlive s p)
        { s with mConnections := pre ++ swept oldestKeepAlive s p :: suf } := by
  have hat : (connectionAt pre.length).run s = .ok p s :=
    connectionAt_run (entry_of_eq hs)
  unfold sweepAt
  rw [run_bind_of_ok hat, EStateM.run_bind, EStateM.run_get]
  dsimp only
  rw [swept]
  cases hdead : isDead oldestKeepAlive s p with
  | true =>
      rw [if_pos rfl, if_pos rfl,
        run_bind_of_ok (dropAt_run hpassive pre.length p s), hs,
        List.set_append_right _ _ (Nat.le_refl _), Nat.sub_self]
      rfl
  | false =>
      rw [if_neg Bool.false_ne_true, if_neg Bool.false_ne_true, ← hs]
      rfl

variable (oldestKeepAlive) in
/-- The whole loop replaces every entry. -/
theorem sweepLoop_run (hpassive : Passive onClientDisconnect)
    (suf : List (Option Nat)) {pre : List (Option Nat)}
    (hs : s.mConnections = pre ++ suf) :
    (forConnections (sweepAt onClientDisconnect oldestKeepAlive)
        (List.range' pre.length suf.length)).run s
      = .ok (suf.any (isDead oldestKeepAlive s))
        { s with mConnections := pre ++ suf.map (swept oldestKeepAlive s) } := by
  induction suf generalizing pre s with
  | nil =>
      rw [List.append_nil] at hs
      rw [List.map_nil, List.append_nil, ← hs]
      rfl
  | cons p suf ih =>
      have hone := sweepAt_run oldestKeepAlive hpassive hs
      obtain ⟨l, hl⟩ : ∃ l, l = pre ++ [swept oldestKeepAlive s p] := ⟨_, rfl⟩
      have hlen : l.length = pre.length + 1 := by simp [hl]
      obtain ⟨s₁, hs₁⟩ : ∃ s₁ : PacketServer,
          s₁ = { s with mConnections := l ++ suf } := ⟨_, rfl⟩
      have hrest := @ih s₁ l (by rw [hs₁])
      -- the sweep's verdicts depend on the connections behind the pointers
      have hsame : isDead oldestKeepAlive s₁ = isDead oldestKeepAlive s
          ∧ swept oldestKeepAlive s₁ = swept oldestKeepAlive s := by
        rw [hs₁]
        exact ⟨rfl, rfl⟩
      rw [hlen, hsame.1, hsame.2] at hrest
      have hcons : pre ++ swept oldestKeepAlive s p :: suf = l ++ suf := by
        rw [hl, List.append_assoc, List.singleton_append]
      rw [hcons, ← hs₁] at hone
      rw [List.length_cons, List.range'_succ, forConnections,
        run_bind_of_ok hone, run_bind_of_ok hrest, hs₁, hl, List.append_assoc]
      rfl

-- ================================================================ frames

/-- No connection is added. -/
def clientsFrame : Frame PacketServer where
  rel s s' := ∀ k, some k ∈ s'.mConnections → some k ∈ s.mConnections
  refl _ _ := id
  trans h h' k := h k ∘ h' k

/-- Nobody enters `m_Connections` where an entry is reset, -/
theorem dropAt_keeps (hpassive : Passive onClientDisconnect) (i : Nat)
    (p : Option Nat) : Keeps clientsFrame (dropAt onClientDisconnect i p) := by
  intro s k hk
  rw [after_of_ok (dropAt_run hpassive i p s)] at hk
  rcases List.mem_or_eq_of_mem_set hk with hk | hk
  · exact hk
  · cases hk

/-- nor where a connection does something, -/
theorem onConnection_keeps (k : Nat) (m : ConnM PUnit) :
    Keeps clientsFrame (onConnection k m) := by
  intro s j hj
  cases hm : m.run (s.connection k) with
  | ok u c =>
      rw [after_of_ok (onConnection_of_ok hm)] at hj
      exact hj
  | error e c =>
      rw [after_of_error (onConnection_of_error hm)] at hj
      exact hj

theorem connectionAt_keeps (i : Nat) :
    Keeps clientsFrame (connectionAt i) := by
  refine keeps_get.bind fun s => ?_
  split
  · exact keeps_throw _
  · exact keeps_pure _

/-- and so in no loop whose visits let nobody in. -/
theorem forConnections_keeps {visit : Nat → ServerM Bool}
    (hvisit : ∀ i, Keeps clientsFrame (visit i)) (is : List Nat) :
    Keeps clientsFrame (forConnections visit is) := by
  induction is with
  | nil => exact keeps_pure _
  | cons i is ih =>
      exact (hvisit i).bind fun _ => ih.bind fun _ => keeps_pure _

theorem eraseNull_keeps (invalidClientExists : Bool) :
    Keeps clientsFrame (eraseNull invalidClientExists) := by
  refine .ite (keeps_modify ?_) (keeps_pure _)
  intro s k hk
  exact (List.mem_filter.mp hk).1

theorem sendAllClients_keeps (hpassive : Passive onClientDisconnect)
    (packet : IPacket) (ignoredClient : Option Nat) :
    Keeps clientsFrame
      (sendAllClients host ids onClientDisconnect packet ignoredClient) := by
  have hdrop (i : Nat) (p : Option Nat) : Keeps clientsFrame (do
      dropAt onClientDisconnect i p
      pure true : ServerM Bool) :=
    (dropAt_keeps hpassive i p).bind fun _ => keeps_pure _
  have hvisit (i : Nat) : Keeps clientsFrame
      (sendAt host ids onClientDisconnect packet ignoredClient i) := by
    refine (connectionAt_keeps i).bind fun p => keeps_get.bind fun s => ?_
    cases p with
    | none => exact hdrop i none
    | some k =>
        dsimp only
        refine .ite ?_ (.ite (keeps_pure _) (hdrop i (some k)))
        exact .when (onConnection_keeps k _) (fun _ => keeps_pure _)
          (keeps_pure _)
  unfold sendAllClients
  refine keeps_get.bind fun s => ?_
  exact (forConnections_keeps hvisit _).bind fun b => eraseNull_keeps b

-- =============================================================== results

/-- `SendKeepAlive()` drops every connection that is dead when it is
called. -/
theorem sendKeepAlive_drops (hpassive : Passive onClientDisconnect)
    {now later : TimePoint} {k : Nat}
    (hdead : isDead (now - keepAliveMaxDelay) s (some k) = true) :
    some k ∉ (after (sendKeepAlive host ids onClientDisconnect now later)
      s).mConnections := by
  obtain ⟨oldest, ho⟩ : ∃ oldest, oldest = now - keepAliveMaxDelay := ⟨_, rfl⟩
  rw [← ho] at hdead
  have hloop := sweepLoop_run oldest hpassive s.mConnections
    (List.nil_append s.mConnections).symm
  rw [List.nil_append, List.length_nil, ← List.range_eq_range'] at hloop
  -- the entry of a dead connection has been reset when the loop is over
  have hlost : some k ∉ s.mConnections.map (swept oldest s) := by
    intro hmem
    obtain ⟨p, -, hp⟩ := List.mem_map.mp hmem
    rw [swept] at hp
    split at hp
    · cases hp
    · rename_i hlive
      rw [hp] at hlive
      exact hlive hdead
  have hrest (b : Bool) : Keeps clientsFrame (do
      eraseNull b
      sendAllClients host ids onClientDisconnect
        (Ping.toPacket host ids.keepAlive (Ping.create later)) none
      : ServerM PUnit) :=
    (eraseNull_keeps b).bind fun _ => sendAllClients_keeps hpassive _ none
  intro hmem
  unfold after sendKeepAlive at hmem
  rw [EStateM.run_bind, EStateM.run_get] at hmem
  dsimp only at hmem
  rw [← ho, run_bind_of_ok hloop] at hmem
  exact hlost (hrest _ _ k hmem)

open Connection in
/-- After a wrong payload, and as long as no right one arrives, the next
`SendKeepAlive()` drops the connection. -/
theorem wrong_pong_drops {k : Nat} {stream : List UInt8}
    {start now later : TimePoint} {before between : List Action}
    {wrong : Action} {c₁ c₂ : Connection} {payload : UInt64}
    (hbefore : Lts.run (step host ids) (started k stream start) before
      = some c₁)
    (hwrong : pong? host ids c₁ wrong = some payload)
    (hne : payload ≠ c₁.mLastKeepAliveValue)
    (hstep : step host ids wrong c₁ = some c₂)
    (hno : Lts.Meets (step host ids) (NoRightPong host ids) c₂ between)
    (hbetween : Lts.run (step host ids) c₂ between = some (s.connection k))
    (hclock : keepAliveMaxDelay < now)
    (hpassive : Passive onClientDisconnect) :
    some k ∉ (after (sendKeepAlive host ids onClientDisconnect now later)
      s).mConnections := by
  obtain ⟨⟨fs, rest, hr⟩, -⟩ := ledger_run hbefore
  have hnot : NoRightPong host ids c₁ wrong := by
    rw [NoRightPong, hwrong, ne_eq, Option.some.injEq]
    exact hne
  have hepoch : c₂.mLastKeepAlive = 0 := by
    rw [(step_beat hr.direction hr hstep).time hnot, hwrong]
    rfl
  obtain ⟨fs', rest', hr', -⟩ := reader_step hr hstep
  have hstays := stays_epoch ⟨fs', rest', hr'⟩ hepoch hno hbetween
  refine sendKeepAlive_drops hpassive ?_
  have hlate : (s.connection k).mLastKeepAlive < now - keepAliveMaxDelay := by
    rw [hstays]
    exact Int.sub_pos_of_lt hclock
  rw [isDead, decide_eq_true hlate, Bool.or_true]

open Connection in
/-- A wrong payload, a message and another wrong payload, then the
check. -/
theorem wrong_pong_drops_later :
    ∃ s : PacketServer,
      Lts.run (step .little ⟨1, 2⟩)
        (started 0 [1, 0, 0, 8, 5, 0, 0, 0, 0, 0, 0, 0, 9, 0, 0, 0,
          1, 0, 0, 8, 6, 0, 0, 0, 0, 0, 0, 0] 0)
        [.send (Ping.toPacket .little 1 ⟨7⟩), .readDone .header true 1,
          .readDone (.body 8) true 2, .readDone .header true 3,
          .readDone .header true 4, .readDone (.body 8) true 5]
        = some (s.connection 0)
      ∧ (s.connection 0).mMessagesIn.map (·.second.header.id) = [1, 9, 1]
      ∧ some 0 ∉ (after (sendKeepAlive .little ⟨1, 2⟩ none 100000000000 0)
        s).mConnections := by
  have hend : (Lts.run (step .little ⟨1, 2⟩)
      (started 0 [1, 0, 0, 8, 5, 0, 0, 0, 0, 0, 0, 0, 9, 0, 0, 0,
        1, 0, 0, 8, 6, 0, 0, 0, 0, 0, 0, 0] 0)
      [.send (Ping.toPacket .little 1 ⟨7⟩), .readDone .header true 1]).bind
        (fun c₁ => (step .little ⟨1, 2⟩ (.readDone (.body 8) true 2) c₁).bind
          fun c₂ => (Lts.run (step .little ⟨1, 2⟩) c₂
            [.readDone .header true 3, .readDone .header true 4,
              .readDone (.body 8) true 5]).map
          fun c₃ => (pong? .little ⟨1, 2⟩ c₁ (.readDone (.body 8) true 2),
            c₁.mLastKeepAliveValue,
            decide (Lts.Meets (step .little ⟨1, 2⟩)
              (NoRightPong .little ⟨1, 2⟩) c₂
              [.readDone .header true 3, .readDone .header true 4,
                .readDone (.body 8) true 5]),
            c₃.mMessagesIn.map (·.second.header.id)))
      = some (some 5, 7, true, [1, 9, 1]) := by
    decide +kernel
  obtain ⟨c₁, hbefore, hc₁⟩ := Option.bind_eq_some_iff.mp hend
  obtain ⟨c₂, hstep, hc₂⟩ := Option.bind_eq_some_iff.mp hc₁
  obtain ⟨c₃, hbetween, hc₃⟩ := Option.map_eq_some_iff.mp hc₂
  simp only [Prod.mk.injEq] at hc₃
  obtain ⟨hwrong, hvalue, hno, hmsgs⟩ := hc₃
  have hpassive : Passive none := by
    intro callback hmem
    cases hmem
  refine ⟨⟨[some 0], fun _ => c₃⟩, ?_, hmsgs, ?_⟩
  · exact Lts.run_append hbefore (Lts.run_cons hstep hbetween)
  · exact wrong_pong_drops (s := ⟨[some 0], fun _ => c₃⟩) hbefore hwrong
      (by rw [hvalue]; decide) hstep (of_decide_eq_true hno) hbetween
      (by decide) hpassive

open Connection in
/-- A wrong payload and then a right one: the connection stays. -/
theorem wrong_pong_forgotten :
    ¬ ∀ (host : ByteOrder) (ids : PacketIDs) (s : PacketServer) (k : Nat)
        (stream : List UInt8) (start now later : TimePoint)
        (before between : List Action) (wrong : Action)
        (c₁ c₂ : Connection) (payload : UInt64),
      Lts.run (step host ids) (started k stream start) before = some c₁ →
      pong? host ids c₁ wrong = some payload →
      payload ≠ c₁.mLastKeepAliveValue →
      step host ids wrong c₁ = some c₂ →
      Lts.run (step host ids) c₂ between = some (s.connection k) →
      keepAliveMaxDelay < now →
      some k ∉ (after (sendKeepAlive host ids none now later) s).mConnections
      := by
  intro h
  have hend : (Lts.run (step .little ⟨1, 2⟩)
      (started 0 [1, 0, 0, 8, 5, 0, 0, 0, 0, 0, 0, 0,
        1, 0, 0, 8, 7, 0, 0, 0, 0, 0, 0, 0] 0)
      [.send (Ping.toPacket .little 1 ⟨7⟩), .readDone .header true 1]).bind
        (fun c₁ => (step .little ⟨1, 2⟩ (.readDone (.body 8) true 2) c₁).bind
          fun c₂ => (Lts.run (step .little ⟨1, 2⟩) c₂
            [.readDone .header true 3,
              .readDone (.body 8) true 99000000000]).map
          fun c₃ => (pong? .little ⟨1, 2⟩ c₁ (.readDone (.body 8) true 2),
            c₁.mLastKeepAliveValue,
            (after (sendKeepAlive .little ⟨1, 2⟩ none 100000000000 0)
              ⟨[some 0], fun _ => c₃⟩).mConnections))
      = some (some 5, 7, [some 0]) := by
    decide +kernel
  obtain ⟨c₁, hbefore, hc₁⟩ := Option.bind_eq_some_iff.mp hend
  obtain ⟨c₂, hstep, hc₂⟩ := Option.bind_eq_some_iff.mp hc₁
  obtain ⟨c₃, hbetween, hc₃⟩ := Option.map_eq_some_iff.mp hc₂
  simp only [Prod.mk.injEq] at hc₃
  obtain ⟨hwrong, hvalue, hstays⟩ := hc₃
  have hgone := h .little ⟨1, 2⟩ ⟨[some 0], fun _ => c₃⟩ 0 _ 0 100000000000 0
    _ _ _ c₁ c₂ 5 hbefore hwrong (by rw [hvalue]; decide) hstep hbetween
    (by decide)
  rw [hstays] at hgone
  exact hgone (List.mem_singleton_self _)

end PacketServer

end AWEnginePacket
