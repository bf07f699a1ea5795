/-
A server's operation that nobody interrupts.

`Model/Server` has `Send_AllClients()` and `SendKeepAlive()` as methods
that run to their end, `Model/Service` has them one entry at a time with
the io thread in between. Left alone, the second do what the first do:
the user's thread ends between operations, with the container and the
connections the method leaves, whether it returns or throws
(`sendAllClients_alone`, `sendKeepAlive_alone`). What is proved about the
methods holds of a server at work as long as no handler comes in between.
-/
import AWEnginePacket.Proofs.Service
import AWEnginePacket.Proofs.Sweep

namespace AWEnginePacket

open Endian (ByteOrder)
open Effect
open PacketServer (Passive)

namespace Service

variable {host : ByteOrder} {ids : PacketIDs} {s s' t : Service}
  {onClientDisconnect : Option (Option Nat → ServerM PUnit)}
  {loop : Loop} {i k : Nat} {b : Bool} {p : Option Nat}

-- ============================================================ the user alone

/-- The steps of the user's thread. -/
def Action.isUser : Action → Bool
  | .accept _ _ _ => false
  | .io _ _ => false
  | .popMessage => false
  | _ => true

variable (host ids) in
/-- A step of the user's thread. -/
def userStep (a : Action) (s : Service) : Option Service :=
  if a.isUser then step host ids a s else none

variable (host ids) in
/-- The user's thread gets there by itself. -/
def Alone (s t : Service) : Prop := Lts.Reaches (userStep host ids) s t

theorem Alone.refl (s : Service) : Alone host ids s s := Lts.Reaches.refl s

theorem Alone.trans (h : Alone host ids s t) {u : Service}
    (h' : Alone host ids t u) : Alone host ids s u := Lts.Reaches.trans h h'

theorem Alone.snoc {a : Action} {u : Service} (h : Alone host ids s t)
    (ha : a.isUser = true) (hlives : t.terminated = false)
    (hevent : event host ids a t = some u) : Alone host ids s u := by
  refine Lts.Reaches.snoc h (a := a) ?_
  rw [userStep, if_pos ha, step, if_neg (by simp [hlives])]
  exact hevent

/-- Nothing has gone wrong, and no `Send` is under way. -/
structure Quiet (s : Service) : Prop where
  lives : s.terminated = false
  intact : ∀ k, (s.connection k).escaped = none
  noCalls : ∀ k, (s.connection k).calls = []

theorem Quiet.of_eq (hq : Quiet s) (hlives : t.terminated = s.terminated)
    (hconnection : t.connection = s.connection) : Quiet t := by
  refine ⟨hlives.trans hq.lives, fun k => ?_, fun k => ?_⟩
  · rw [hconnection]
    exact hq.intact k
  · rw [hconnection]
    exact hq.noCalls k

variable (host ids) in
/-- The user goes on to another part of its code. -/
theorem Quiet.moves (hq : Quiet s) (a : Action) (ha : a.isUser = true)
    (task : Task) (hevent : event host ids a s = some { s with task }) :
    Alone host ids s { s with task } ∧ Quiet { s with task } :=
  ⟨(Alone.refl s).snoc ha hq.lives hevent, hq.of_eq rfl rfl⟩

theorem event_next (ht : s.task = .looping loop i b)
    (hi : s.mConnections[i]? = some p) :
    event host ids .next s = some (visitAt loop i b p s) := by
  simp only [event, ht, hi]

theorem event_next_end (ht : s.task = .looping loop i b)
    (hi : s.mConnections[i]? = none) :
    event host ids .next s = some { s with
      mConnections := erased b s.mConnections, task := loop.after } := by
  simp only [event, ht, hi, loopEnds_eq]

-- ================================================================= visits

variable (host ids onClientDisconnect) in
/-- The body of a loop, as the method has it. -/
def Loop.body : Loop → Nat → ServerM Bool
  | .keepAlive oldestKeepAlive =>
      PacketServer.sweepAt onClientDisconnect oldestKeepAlive
  | .allClients packet ignoredClient =>
      PacketServer.sendAt host ids onClientDisconnect packet ignoredClient

variable (host ids onClientDisconnect) in
/-- The same, by what the loop makes of the entry. -/
def Visit.act (loop : Loop) (i : Nat) (p : Option Nat) : Visit → ServerM Bool
  | .leave => pure false
  | .send k =>
      match loop with
      | .keepAlive _ => pure false
      | .allClients packet _ => do
          PacketServer.onConnection k (Connection.send host ids packet)
          pure false
  | .drop => do
      PacketServer.dropAt onClientDisconnect i p
      pure true

theorem body_run {q : PacketServer} (hi : q.mConnections[i]? = some p) :
    (loop.body host ids onClientDisconnect i).run q
      = ((loop.visit q p).act host ids onClientDisconnect loop i p).run q := by
  have hat := PacketServer.connectionAt_run hi
  cases loop with
  | keepAlive oldestKeepAlive =>
      simp only [Loop.body, PacketServer.sweepAt, Loop.visit]
      rw [run_bind_of_ok hat, EStateM.run_bind, EStateM.run_get]
      dsimp only
      cases q.isDead oldestKeepAlive p with
      | true => rfl
      | false => rfl
  | allClients packet ignoredClient =>
      simp only [Loop.body, PacketServer.sendAt]
      rw [run_bind_of_ok hat, EStateM.run_bind, EStateM.run_get]
      cases p with
      | none => rfl
      | some k =>
          simp only [Loop.visit]
          cases hc : (q.connection k).isConnected with
          | true =>
              by_cases hignored : some k ≠ ignoredClient
              · rw [if_pos rfl, if_pos hignored, if_pos rfl, if_pos hignored]
                rfl
              · rw [if_pos rfl, if_neg hignored, if_pos rfl, if_neg hignored]
                rfl
          | false =>
              rw [if_neg Bool.false_ne_true, if_neg Bool.false_ne_true]
              cases (q.connection k).isConnecting with
              | true => rfl
              | false => rfl

variable (host ids) in
/-- The user's thread gets by itself to where a part of a loop's method
leads: in front of the `j`-th entry, or out of the operation where the
method throws. -/
def Follows (s : Service) (loop : Loop) (j : Nat) (b : Bool) :
    EStateM.Result Fault PacketServer Bool → Prop
  | .ok invalid q => ∃ s', Alone host ids s s' ∧ Quiet s'
      ∧ s'.toPacketServer = q
      ∧ s'.mConnections.length = s.mConnections.length
      ∧ s'.task = .looping loop j (b || invalid)
  | .error _ q => ∃ s', Alone host ids s s' ∧ s'.toPacketServer = q
      ∧ s'.task = .idle

/-- A connection changes, and is as quiet as before. -/
theorem Quiet.setConnection (hq : Quiet s) {c : Connection}
    (hesc : c.escaped = none) (hcalls : c.calls = []) (k : Nat)
    (task : Task) : Quiet { s.setConnection k c with task } := by
  refine ⟨hq.lives, fun j => ?_, fun j => ?_⟩
  · by_cases hj : j = k
    · subst hj
      show (Function.update s.connection j c j).escaped = none
      rw [Function.update_self]
      exact hesc
    · show (Function.update s.connection k c j).escaped = none
      rw [Function.update_of_ne hj]
      exact hq.intact j
  · by_cases hj : j = k
    · subst hj
      show (Function.update s.connection j c j).calls = []
      rw [Function.update_self]
      exact hcalls
    · show (Function.update s.connection k c j).calls = []
      rw [Function.update_of_ne hj]
      exact hq.noCalls j

/-- The `Send` of a visit. -/
theorem follows_send {packet : IPacket} {ignoredClient : Option Nat}
    (hq : Quiet s) (ht : s.task = .looping (.allClients packet ignoredClient) i b)
    (hi : s.mConnections[i]? = some p)
    (hv : Loop.visit s.toPacketServer (.allClients packet ignoredClient) p
      = .send k) :
    Follows host ids s (.allClients packet ignoredClient) (i + 1) b
      ((do PacketServer.onConnection k (Connection.send host ids packet)
           pure false : ServerM Bool).run s.toPacketServer) := by
  obtain ⟨s₁, hs₁⟩ : ∃ s₁ : Service,
      s₁ = { s with task := .sending packet ignoredClient i b k } := ⟨_, rfl⟩
  have hpick : Alone host ids s s₁ := by
    apply (Alone.refl s).snoc (a := .next) rfl hq.lives
    rw [event_next ht hi, hs₁]
    unfold visitAt
    rw [hv]
  have hlives₁ : s₁.terminated = false := by rw [hs₁]; exact hq.lives
  rcases Connection.prepare_cases host ids packet (s.connection k)
    with ⟨hsends, call, c₁, hprep⟩ | ⟨hthrows, e, hprep⟩
  · have hbegin : (Connection.sendBegin host ids packet).run (s.connection k)
        = .ok ⟨⟩ { c₁ with calls := c₁.calls ++ [call] } :=
      run_bind_of_ok hprep
    obtain ⟨c₂, hsend, hend, hesc₂, hcalls₂⟩ :=
      Connection.send_halves (hq.intact k) (hq.noCalls k) hbegin
    have hmethod := run_bind_of_ok (f := fun _ => (pure false : ServerM Bool))
      (PacketServer.onConnection_of_ok (s := s.toPacketServer) hsend)
    rw [hmethod]
    refine ⟨{ s.setConnection k c₂ with
        task := .looping (.allClients packet ignoredClient) (i + 1) b }, ?_,
      hq.setConnection hesc₂ hcalls₂ k _, rfl, rfl, by rw [Bool.or_false]⟩
    have hhalf : Alone host ids s { s.setConnection k
        { c₁ with calls := c₁.calls ++ [call] } with
        task := .posting packet ignoredClient i b k } := by
      apply hpick.snoc (a := .send) rfl hlives₁
      rw [hs₁]
      simp only [event, hbegin]
      rfl
    apply hhalf.snoc (a := .post) rfl hq.lives
    simp only [event, setConnection, Function.update_self, hend,
      Option.map_some, Function.update_idem]
  · have hbegin : (Connection.sendBegin host ids packet).run (s.connection k)
        = .error e (s.connection k) := run_bind_of_error hprep
    have hsend : (Connection.send host ids packet).run (s.connection k)
        = .error e (s.connection k) := run_bind_of_error hprep
    have hmethod := run_bind_of_error (f := fun _ => (pure false : ServerM Bool))
      (PacketServer.onConnection_of_error (s := s.toPacketServer) hsend)
    rw [hmethod, Function.update_eq_self]
    refine ⟨{ s with task := .idle }, ?_, rfl, rfl⟩
    apply hpick.snoc (a := .send) rfl hlives₁
    rw [hs₁]
    simp only [event, hbegin, setConnection, Function.update_eq_self]

/-- One entry. -/
theorem follows_body (hpassive : Passive onClientDisconnect) (hq : Quiet s)
    (ht : s.task = .looping loop i b) (hi : s.mConnections[i]? = some p) :
    Follows host ids s loop (i + 1) b
      ((loop.body host ids onClientDisconnect i).run s.toPacketServer) := by
  rw [body_run hi]
  have hone {u : Service} (hu : visitAt loop i b p s = u) :
      Alone host ids s u :=
    (Alone.refl s).snoc (a := .next) rfl hq.lives (hu ▸ event_next ht hi)
  cases hv : loop.visit s.toPacketServer p with
  | leave =>
      refine ⟨{ s with task := .looping loop (i + 1) b }, hone ?_,
        hq.of_eq rfl rfl, rfl, rfl, by rw [Bool.or_false]⟩
      unfold visitAt
      rw [hv]
  | drop =>
      have hrun := PacketServer.dropAt_run hpassive i p s.toPacketServer
      rw [Visit.act, run_bind_of_ok hrun]
      refine ⟨{ drop i p s with task := .looping loop (i + 1) true }, hone ?_,
        hq.of_eq rfl rfl, rfl, List.length_set, by rw [Bool.or_true]⟩
      unfold visitAt
      rw [hv]
  | send k =>
      cases loop with
      | keepAlive oldestKeepAlive =>
          simp only [Loop.visit] at hv
          split at hv
          · cases hv
          · cases hv
      | allClients packet ignoredClient => exact follows_send hq ht hi hv

/-- A whole loop, from any entry to the last. -/
theorem follows_loop (hpassive : Passive onClientDisconnect) (n : Nat)
    (hq : Quiet s) (ht : s.task = .looping loop i b)
    (hlen : s.mConnections.length = i + n) :
    Follows host ids s loop (i + n) b
      ((PacketServer.forConnections (loop.body host ids onClientDisconnect)
        (List.range' i n)).run s.toPacketServer) := by
  induction n generalizing s i b with
  | zero =>
      exact ⟨s, Alone.refl s, hq, rfl, rfl,
        by rw [ht, Bool.or_false, Nat.add_zero]⟩
  | succ n ih =>
      obtain ⟨p, hi⟩ : ∃ p, s.mConnections[i]? = some p :=
        ⟨_, List.getElem?_eq_getElem (by omega)⟩
      have hone := @follows_body host ids s onClientDisconnect loop i b p
        hpassive hq ht hi
      rw [List.range'_succ, PacketServer.forConnections]
      cases hrun : (loop.body host ids onClientDisconnect i).run
          s.toPacketServer with
      | error e q =>
          rw [hrun] at hone
          rw [run_bind_of_error hrun]
          exact hone
      | ok invalid q =>
          rw [hrun] at hone
          obtain ⟨s₁, halone, hq₁, rfl, hlen₁, ht₁⟩ := hone
          have hrest := ih hq₁ ht₁ (by omega)
          rw [run_bind_of_ok hrun]
          cases hrun' : (PacketServer.forConnections
              (loop.body host ids onClientDisconnect)
              (List.range' (i + 1) n)).run s₁.toPacketServer with
          | error e q =>
              rw [hrun'] at hrest
              obtain ⟨s₂, halone₂, hs₂, ht₂⟩ := hrest
              rw [run_bind_of_error hrun']
              exact ⟨s₂, halone.trans halone₂, hs₂, ht₂⟩
          | ok invalid' q =>
              rw [hrun'] at hrest
              obtain ⟨s₂, halone₂, hq₂, hs₂, hlen₂, ht₂⟩ := hrest
              rw [run_bind_of_ok hrun']
              refine ⟨s₂, halone.trans halone₂, hq₂, hs₂, by omega, ?_⟩
              rw [ht₂, Bool.or_assoc, Nat.add_right_comm, Nat.add_assoc]

-- ============================================================== operations

theorem eraseNull_run (b : Bool) (q : PacketServer) :
    (PacketServer.eraseNull b).run q
      = .ok ⟨⟩ { q with mConnections := erased b q.mConnections } := by
  cases b with
  | false => rfl
  | true => rfl

/-- A loop and the erase behind it: past the last entry, or out of the
operation. -/
theorem follows_operation (hpassive : Passive onClientDisconnect)
    (hq : Quiet s) (ht : s.task = .looping loop 0 false) :
    (∃ invalid q s', (PacketServer.forConnections
            (loop.body host ids onClientDisconnect)
            (List.range s.mConnections.length)).run s.toPacketServer
          = .ok invalid q
        ∧ Alone host ids s s' ∧ Quiet s' ∧ s'.task = loop.after
        ∧ (PacketServer.eraseNull invalid).run q = .ok ⟨⟩ s'.toPacketServer)
      ∨ ∃ e q s', (PacketServer.forConnections
            (loop.body host ids onClientDisconnect)
            (List.range s.mConnections.length)).run s.toPacketServer
          = .error e q
        ∧ Alone host ids s s' ∧ s'.task = .idle ∧ s'.toPacketServer = q := by
  have hloop := @follows_loop host ids s onClientDisconnect loop 0 false
    hpassive s.mConnections.length hq ht (Nat.zero_add _).symm
  rw [← List.range_eq_range'] at hloop
  cases hrun : (PacketServer.forConnections
      (loop.body host ids onClientDisconnect)
      (List.range s.mConnections.length)).run s.toPacketServer with
  | ok invalid q =>
      rw [hrun] at hloop
      obtain ⟨s₁, halone, hq₁, rfl, hlen₁, ht₁⟩ := hloop
      have hpast : s₁.mConnections[0 + s.mConnections.length]? = none := by
        rw [Nat.zero_add, ← hlen₁]
        exact List.getElem?_eq_none (Nat.le_refl _)
      rw [Bool.false_or] at ht₁
      refine .inl ⟨invalid, _, { s₁ with
        mConnections := erased invalid s₁.mConnections
        task := loop.after }, rfl, ?_, hq₁.of_eq rfl rfl, rfl,
        eraseNull_run invalid _⟩
      exact halone.snoc (a := .next) rfl hq₁.lives (event_next_end ht₁ hpast)
  | error e q =>
      rw [hrun] at hloop
      obtain ⟨s₁, halone, hs₁, ht₁⟩ := hloop
      exact .inr ⟨e, q, s₁, rfl, halone, ht₁, hs₁⟩

/-- The loop of `Send_AllClients()`, from its first entry. -/
theorem allClients_alone (hpassive : Passive onClientDisconnect)
    {packet : IPacket} {ignoredClient : Option Nat} (hq : Quiet s)
    (ht : s.task = .looping (.allClients packet ignoredClient) 0 false) :
    ∃ s', Alone host ids s s' ∧ s'.task = .idle
      ∧ s'.toPacketServer = after (PacketServer.sendAllClients host ids
        onClientDisconnect packet ignoredClient) s.toPacketServer := by
  rcases @follows_operation host ids s onClientDisconnect _ hpassive hq ht
    with ⟨invalid, q, s', hrun, halone, -, ht', herase⟩
      | ⟨e, q, s', hrun, halone, ht', hs'⟩
  · have hmethod : (PacketServer.sendAllClients host ids onClientDisconnect
        packet ignoredClient).run s.toPacketServer
        = .ok ⟨⟩ s'.toPacketServer := by
      unfold PacketServer.sendAllClients
      rw [EStateM.run_bind, EStateM.run_get]
      exact (run_bind_of_ok hrun).trans herase
    exact ⟨s', halone, ht', (after_of_ok hmethod).symm⟩
  · have hmethod : (PacketServer.sendAllClients host ids onClientDisconnect
        packet ignoredClient).run s.toPacketServer = .error e q := by
      unfold PacketServer.sendAllClients
      rw [EStateM.run_bind, EStateM.run_get]
      exact run_bind_of_error hrun
    exact ⟨s', halone, ht', hs'.trans (after_of_error hmethod).symm⟩

/-- `Send_AllClients()`, left alone, does what the method does. -/
theorem sendAllClients_alone (hpassive : Passive onClientDisconnect)
    (packet : IPacket) (ignoredClient : Option Nat) (hq : Quiet s)
    (ht : s.task = .idle) :
    ∃ s', Alone host ids s s' ∧ s'.task = .idle
      ∧ s'.toPacketServer = after (PacketServer.sendAllClients host ids
        onClientDisconnect packet ignoredClient) s.toPacketServer := by
  obtain ⟨hstart, hq₁⟩ := hq.moves host ids
    (.sendAllClients packet ignoredClient) rfl
    (.looping (.allClients packet ignoredClient) 0 false)
    (by simp only [event, ht, Task.isIdle, if_true])
  obtain ⟨s', halone, ht', hs'⟩ := allClients_alone hpassive hq₁ rfl
  exact ⟨s', hstart.trans halone, ht', hs'⟩

/-- `SendKeepAlive()`, left alone, does what the method does. -/
theorem sendKeepAlive_alone (hpassive : Passive onClientDisconnect)
    (now later : TimePoint) (hq : Quiet s) (ht : s.task = .idle) :
    ∃ s', Alone host ids s s' ∧ s'.task = .idle
      ∧ s'.toPacketServer = after (PacketServer.sendKeepAlive host ids
        onClientDisconnect now later) s.toPacketServer := by
  obtain ⟨hstart, hq₁⟩ := hq.moves host ids
    (.sendKeepAlive now) rfl
    (.looping (.keepAlive (now - keepAliveMaxDelay)) 0 false)
    (by simp only [event, ht, Task.isIdle, if_true])
  rcases follows_operation hpassive hq₁ rfl
    with ⟨invalid, q, s₂, hrun, halone, hq₂, ht₂, herase⟩
      | ⟨e, q, s₂, hrun, halone, ht₂, hs₂⟩
  · -- the ping is made, and sent by the other method
    obtain ⟨hping, hq₃⟩ := hq₂.moves host ids
      (.ping later) rfl
      (.looping (.allClients (Ping.toPacket host ids.keepAlive
        (Ping.create later)) none) 0 false)
      (by simp only [event, ht₂, Loop.after])
    obtain ⟨s', halone', ht', hs'⟩ := allClients_alone hpassive hq₃ rfl
    refine ⟨s', ((hstart.trans halone).trans hping).trans halone', ht', ?_⟩
    have hmethod : (PacketServer.sendKeepAlive host ids onClientDisconnect now
          later).run s.toPacketServer
        = (PacketServer.sendAllClients host ids onClientDisconnect
          (Ping.toPacket host ids.keepAlive (Ping.create later)) none).run
          s₂.toPacketServer := by
      unfold PacketServer.sendKeepAlive
      rw [EStateM.run_bind, EStateM.run_get]
      exact (run_bind_of_ok hrun).trans (run_bind_of_ok herase)
    rw [hs', after, after, hmethod]
  · have hmethod : (PacketServer.sendKeepAlive host ids onClientDisconnect now
        later).run s.toPacketServer = .error e q := by
      unfold PacketServer.sendKeepAlive
      rw [EStateM.run_bind, EStateM.run_get]
      exact run_bind_of_error hrun
    refine ⟨s₂, hstart.trans halone, ht₂, ?_⟩
    rw [hs₂]
    exact (after_of_error hmethod).symm

end Service

end AWEnginePacket
