/-
The connections of a server at work.

`Move` says what each step does. Two results are read off it, both with
the exact condition.

- `m_Connections` has no null entry between operations as long as no
  `Send` of a loop throws after that loop has reset an entry: the
  exception leaves the loop before the erase (`clean_iff`). Then
  `OnClientDisconnect` is called with no null pointer and not twice with
  the same connection.
- A connection with an operation outstanding is owned as long as nobody
  takes its last owner away: a sweep that resets its entry with none of
  its messages in the queue, or `Update()` that takes its last message
  when the entry has gone (`owned_iff`). Nothing in the code looks at
  what is outstanding before it does either.

What a server does with one of its connections is a run of `Connection`
(`connection_lived`).
-/
import AWEnginePacket.Lib.Lts
import AWEnginePacket.Lib.Slots
import AWEnginePacket.Model.Service
import AWEnginePacket.Proofs.Reading

namespace AWEnginePacket

open Endian (ByteOrder)
open Effect

namespace Service

variable {host : ByteOrder} {ids : PacketIDs} {s s' : Service} {a : Action}

-- ================================================================= moves

/-- A connection has handled something and pushed what it received. -/
def handled (k : Nat) (c : Connection) (s : Service) : Service :=
  { s.setConnection k c with
    mMessageInQueue := s.mMessageInQueue
      ++ c.mMessagesIn.drop (s.connection k).mMessagesIn.length
    terminated := c.escaped.isSome }

/-- Where the end of a loop leads. -/
def Loop.after : Loop → Task
  | .keepAlive _ => .pinging
  | .allClients _ _ => .idle

/-- The container after the erase at the end of a loop. -/
def erased (invalidClientExists : Bool) (m : List (Option Nat)) :
    List (Option Nat) :=
  if invalidClientExists then m.filter (·.isSome) else m

theorem loopEnds_eq (loop : Loop) (b : Bool) (s : Service) :
    loopEnds loop b s
      = { s with mConnections := erased b s.mConnections
                 task := loop.after } := by
  cases b <;> cases loop <;> rfl

/-- The erase takes no connection out. -/
theorem mem_erased {k : Nat} {b : Bool} {m : List (Option Nat)} :
    some k ∈ erased b m ↔ some k ∈ m := by
  cases b with
  | false => exact Iff.rfl
  | true => simp [erased]

variable (host ids) in
/-- What each step does. -/
inductive Move (s : Service) : Action → Service → Prop
  | approves {incoming : List UInt8} {now : TimePoint}
      (hidle : s.task.isIdle = true) :
      Move s (.accept true incoming now) (accept true incoming now s)
  | denies {incoming : List UInt8} {now : TimePoint}
      (hidle : s.task.isIdle = true) :
      Move s (.accept false incoming now) (accept false incoming now s)
  | handles {k : Nat} {b : Connection.Action} {c : Connection}
      (howns : s.owns k = true)
      (hstep : Connection.step host ids b (s.connection k) = some c) :
      Move s (.io k b) (handled k c s)
  | pops {m : OwnedMessage} {rest : List OwnedMessage}
      (hqueue : s.mMessageInQueue = m :: rest) :
      Move s .popMessage { s with mMessageInQueue := rest }
  | broadcasts {packet : IPacket} {ignoredClient : Option Nat}
      (hidle : s.task.isIdle = true) :
      Move s (.sendAllClients packet ignoredClient) { s with
        task := .looping (.allClients packet ignoredClient) 0 false }
  | sweeps {now : TimePoint} (hidle : s.task.isIdle = true) :
      Move s (.sendKeepAlive now) { s with
        task := .looping (.keepAlive (now - keepAliveMaxDelay)) 0 false }
  | pings {now : TimePoint} (ht : s.task = .pinging) :
      Move s (.ping now) { s with
        task := .looping (.allClients
          (Ping.toPacket host ids.keepAlive (Ping.create now)) none) 0 false }
  | ends {loop : Loop} {i : Nat} {b : Bool} (ht : s.task = .looping loop i b)
      (hi : s.mConnections[i]? = none) :
      Move s .next { s with mConnections := erased b s.mConnections
                            task := loop.after }
  | drops {loop : Loop} {i : Nat} {b : Bool} {p : Option Nat}
      (ht : s.task = .looping loop i b) (hi : s.mConnections[i]? = some p)
      (hv : loop.visit s.toPacketServer p = .drop) :
      Move s .next { drop i p s with task := .looping loop (i + 1) true }
  | leaves {loop : Loop} {i : Nat} {b : Bool} {p : Option Nat}
      (ht : s.task = .looping loop i b) (hi : s.mConnections[i]? = some p)
      (hv : loop.visit s.toPacketServer p ≠ .drop) :
      Move s .next { s with task := .looping loop (i + 1) b }
  | picks {packet : IPacket} {ignoredClient : Option Nat} {i k : Nat}
      {b : Bool} {p : Option Nat}
      (ht : s.task = .looping (.allClients packet ignoredClient) i b)
      (hi : s.mConnections[i]? = some p)
      (hv : Loop.visit s.toPacketServer (.allClients packet ignoredClient) p
        = .send k) :
      Move s .next { s with task := .sending packet ignoredClient i b k }
  | sends {packet : IPacket} {ignoredClient : Option Nat} {i k : Nat}
      {b : Bool} {c : Connection}
      (ht : s.task = .sending packet ignoredClient i b k)
      (hsends : Connection.Sends packet (s.connection k))
      (hrun : (Connection.sendBegin host ids packet).run (s.connection k)
        = .ok ⟨⟩ c) :
      Move s .send { s.setConnection k c with
        task := .posting packet ignoredClient i b k }
  | throws {packet : IPacket} {ignoredClient : Option Nat} {i k : Nat}
      {b : Bool} (ht : s.task = .sending packet ignoredClient i b k)
      (hthrows : ¬ Connection.Sends packet (s.connection k)) :
      Move s .send { s with task := .idle }
  | posts {packet : IPacket} {ignoredClient : Option Nat} {i k : Nat}
      {b : Bool} {c : Connection}
      (ht : s.task = .posting packet ignoredClient i b k)
      (hstep : Connection.step host ids (.sendEnd 0) (s.connection k)
        = some c) :
      Move s .post { s.setConnection k c with
        task := .looping (.allClients packet ignoredClient) (i + 1) b }

theorem setConnection_self (s : Service) (k : Nat) :
    s.setConnection k (s.connection k) = s := by
  rw [setConnection, Function.update_eq_self]

theorem move_visitAt {loop : Loop} {i : Nat} {b : Bool} {p : Option Nat}
    (ht : s.task = .looping loop i b) (hi : s.mConnections[i]? = some p) :
    Move host ids s .next (visitAt loop i b p s) := by
  unfold visitAt
  cases hv : loop.visit s.toPacketServer p with
  | drop => exact .drops ht hi hv
  | leave => exact .leaves ht hi (by rw [hv]; simp)
  | send k =>
      cases loop with
      | keepAlive oldestKeepAlive => exact .leaves ht hi (by rw [hv]; simp)
      | allClients packet ignoredClient => exact .picks ht hi hv

theorem move_send {packet : IPacket} {ignoredClient : Option Nat} {i k : Nat}
    {b : Bool} (ht : s.task = .sending packet ignoredClient i b k)
    (h : event host ids .send s = some s') : Move host ids s .send s' := by
  simp only [event, ht] at h
  rcases Connection.sendBegin_cases host ids packet (s.connection k)
    with ⟨hsends, c, hrun⟩ | ⟨hthrows, e, hrun⟩
  · simp only [hrun, Option.some.injEq] at h
    rw [← h]
    exact .sends ht hsends hrun
  · simp only [hrun, Option.some.injEq, setConnection_self] at h
    rw [← h]
    exact .throws ht hthrows

/-- After an exception has left a handler there are no steps. -/
theorem lives_of_step (h : step host ids a s = some s') :
    s.terminated = false := by
  unfold step at h
  split at h
  case isTrue => cases h
  case isFalse hlives => simpa using hlives

/-- A step is a move. -/
theorem move_of_step (h : step host ids a s = some s') :
    Move host ids s a s' := by
  unfold step at h
  split at h
  case isTrue => cases h
  case isFalse hlives =>
    cases a with
    | accept approved incoming now =>
        obtain ⟨hidle, rfl⟩ := Lts.of_guarded h
        cases approved with
        | true => exact .approves hidle
        | false => exact .denies hidle
    | io k b =>
        simp only [event] at h
        split at h
        case isFalse => cases h
        case isTrue hio =>
          rw [Bool.and_eq_true] at hio
          obtain ⟨c, hstep, rfl⟩ := Option.map_eq_some_iff.mp h
          exact .handles hio.1 hstep
    | popMessage =>
        obtain ⟨hne, rfl⟩ := Lts.of_guarded h
        cases hqueue : s.mMessageInQueue with
        | nil => exact absurd hqueue hne
        | cons m rest => exact .pops hqueue
    | sendAllClients packet ignoredClient =>
        obtain ⟨hidle, rfl⟩ := Lts.of_guarded h
        exact .broadcasts hidle
    | sendKeepAlive now =>
        obtain ⟨hidle, rfl⟩ := Lts.of_guarded h
        exact .sweeps hidle
    | next =>
        cases ht : s.task with
        | looping loop i b =>
            simp only [event, ht] at h
            split at h
            case h_1 hi =>
              rw [Option.some.injEq] at h
              rw [← h, loopEnds_eq]
              exact .ends ht hi
            case h_2 p hi =>
              rw [Option.some.injEq] at h
              rw [← h]
              exact move_visitAt ht hi
        | _ => simp [event, ht] at h
    | send =>
        cases ht : s.task with
        | sending packet ignoredClient i b k => exact move_send ht h
        | _ => simp [event, ht] at h
    | post =>
        cases ht : s.task with
        | posting packet ignoredClient i b k =>
            simp only [event, ht] at h
            obtain ⟨c, hstep, rfl⟩ := Option.map_eq_some_iff.mp h
            exact .posts ht hstep
        | _ => simp [event, ht] at h
    | ping now =>
        cases ht : s.task with
        | pinging =>
            simp only [event, ht, Option.some.injEq] at h
            rw [← h]
            exact .pings ht
        | _ => simp [event, ht] at h

-- ============================================================ connections

variable (host ids) in
/-- A connection is where events of its own have led it from the moment
it was accepted. -/
structure Lived (s : Service) (k : Nat) : Prop where
  made : k < s.created
  lives : ∃ incoming now, Lts.Reaches (Connection.step host ids)
    (Connection.started k incoming now) (s.connection k)
  intact : s.terminated = false → (s.connection k).escaped = none

/-- A step that leaves the connections alone. -/
theorem Lived.of_eq {k : Nat} (h : Lived host ids s k)
    (hmade : s.created ≤ s'.created)
    (hconn : s'.connection k = s.connection k)
    (hterm : s'.terminated = s.terminated) : Lived host ids s' k := by
  refine ⟨Nat.lt_of_lt_of_le h.made hmade, ?_, ?_⟩
  · rw [hconn]
    exact h.lives
  · rw [hconn, hterm]
    exact h.intact

/-- An event of one connection. -/
theorem Lived.event {j k : Nat} {b : Connection.Action} {c : Connection}
    (h : Lived host ids s j) (hlives : s.terminated = false)
    (hstep : j = k → Connection.step host ids b (s.connection k) = some c)
    (hmade : s'.created = s.created)
    (hconn : s'.connection = Function.update s.connection k c)
    (hterm : s'.terminated = false → c.escaped = none) :
    Lived host ids s' j := by
  have hlt : j < s'.created := by
    rw [hmade]
    exact h.made
  by_cases hj : j = k
  · subst hj
    obtain ⟨incoming, now, hreach⟩ := h.lives
    refine ⟨hlt, ⟨incoming, now, ?_⟩, ?_⟩
    · rw [hconn, Function.update_self]
      exact hreach.snoc (hstep rfl)
    · rw [hconn, Function.update_self]
      exact hterm
  · refine ⟨hlt, ?_, fun _ => ?_⟩
    · rw [hconn, Function.update_of_ne hj]
      exact h.lives
    · rw [hconn, Function.update_of_ne hj]
      exact h.intact hlives

theorem lived_move (h : ∀ k, some k ∈ s.mConnections → Lived host ids s k)
    (hlives : s.terminated = false) (hmove : Move host ids s a s') {k : Nat}
    (hk : some k ∈ s'.mConnections) : Lived host ids s' k := by
  cases hmove with
  | @approves incoming now hidle =>
      by_cases hnew : k = s.created
      · subst hnew
        have hconn : (accept true incoming now s).connection s.created
            = Connection.started s.created incoming now :=
          Function.update_self ..
        refine ⟨Nat.lt_succ_self _, ⟨incoming, now, ?_⟩, fun _ => ?_⟩
        · rw [hconn]
          exact .refl _
        · rw [hconn]
          rfl
      · have hold : some k ∈ s.mConnections := by
          rcases List.mem_append.mp hk with hk | hk
          · exact hk
          · simp [hnew] at hk
        refine (h k hold).of_eq (Nat.le_succ _) ?_ rfl
        exact Function.update_of_ne hnew _ _
  | denies hidle =>
      have hne : k ≠ s.created := by
        have hmade := (h k hk).made
        omega
      refine (h k hk).of_eq (Nat.le_succ _) ?_ rfl
      exact Function.update_of_ne hne _ _
  | handles howns hstep =>
      refine (h k hk).event hlives (fun _ => hstep) rfl rfl fun hterm => ?_
      simpa [handled] using hterm
  | ends ht hi =>
      exact (h k (mem_erased.mp hk)).of_eq (Nat.le_refl _) rfl rfl
  | drops ht hi hv =>
      rcases List.mem_or_eq_of_mem_set hk with hk | hk
      · exact (h k hk).of_eq (Nat.le_refl _) rfl rfl
      · cases hk
  | @sends packet ignoredClient i j b c ht hsends hrun =>
      by_cases hj : k = j
      · subst hj
        have hesc := (h k hk).intact hlives
        have hstep := Connection.step_sendBegin hesc hrun
        have hkept := (Connection.sendBegin_keeps_reading packet).of_ok hrun
        exact (h k hk).event hlives (fun _ => hstep) rfl rfl
          fun _ => hkept.2.2.trans hesc
      · refine (h k hk).of_eq (Nat.le_refl _) ?_ rfl
        exact Function.update_of_ne hj _ _
  | @posts packet ignoredClient i j b c ht hstep =>
      refine (h k hk).event hlives (fun _ => hstep) rfl rfl fun _ => ?_
      obtain ⟨call, -, rfl⟩ := Connection.of_step_sendEnd hstep
      exact (Connection.of_step hstep).1
  | _ => exact (h k hk).of_eq (Nat.le_refl _) rfl rfl

/-- A connection in the container is one that was accepted and has had
events of its own since: what holds of every run of a `Connection` holds
of it. -/
theorem connection_lived {acts : List Action}
    (hrun : Lts.run (step host ids) start acts = some s) {k : Nat}
    (hk : some k ∈ s.mConnections) : Lived host ids s k := by
  have hall : ∀ k, some k ∈ s.mConnections → Lived host ids s k := by
    apply Lts.run_invariant
      (fun s => ∀ k, some k ∈ s.mConnections → Lived host ids s k) ?_ ?_ hrun
    · intro s a s' h hs k hk
      exact lived_move h (lives_of_step hs) (move_of_step hs) hk
    · intro k hk
      cases hk
  exact hall k hk

-- ================================================================== nulls

/-- How far the loop is, and whether it has reset an entry. -/
def Task.position : Task → Option (Nat × Bool)
  | .idle => none
  | .pinging => none
  | .looping _ i b => some (i, b)
  | .sending _ _ i b _ => some (i, b)
  | .posting _ _ i b _ => some (i, b)

/-- Where a container may have null entries: nowhere between loops; in a
loop behind its back, and the loop knows. -/
def Nulls (m : List (Option Nat)) : Option (Nat × Bool) → Prop
  | none => none ∉ m
  | some (i, b) => none ∉ m.drop i ∧ (none ∈ m ↔ b = true)

section nulls

variable {m : List (Option Nat)} {i : Nat} {b : Bool} {p : Option Nat}

theorem Nulls.start (h : none ∉ m) : Nulls m (some (0, false)) := by
  refine ⟨by rwa [List.drop_zero], ?_⟩
  simpa using h

theorem Nulls.skip (h : Nulls m (some (i, b))) :
    Nulls m (some (i + 1, b)) :=
  ⟨Slots.not_mem_drop_succ h.1, h.2⟩

theorem Nulls.reset (h : Nulls m (some (i, b))) (hi : m[i]? = some p) :
    Nulls (m.set i none) (some (i + 1, true)) := by
  obtain ⟨hlt, -⟩ := List.getElem?_eq_some_iff.mp hi
  refine ⟨?_, ?_⟩
  · rw [List.drop_set_of_lt (Nat.lt_succ_self i)]
    exact Slots.not_mem_drop_succ h.1
  · simp [List.mem_set hlt none]

theorem Nulls.erase (h : Nulls m (some (i, b))) : none ∉ erased b m := by
  by_cases hb : b = true
  · rw [erased, if_pos hb]
    exact Slots.none_not_mem_filter
  · rw [erased, if_neg hb, h.2]
    exact hb

end nulls

-- ============================================================== accounting

/-- The pointers in a list are distinct and none is null. -/
def Accounted (l : List (Option Nat)) (created : Nat) : Prop :=
  l.Nodup ∧ ∀ p ∈ l, ∃ k, k < created ∧ p = some k

theorem Accounted.perm {l l' : List (Option Nat)} {n : Nat}
    (h : Accounted l n) (hp : l'.Perm l) : Accounted l' n :=
  ⟨hp.nodup_iff.mpr h.1, fun p hmem => h.2 p (hp.mem_iff.mp hmem)⟩

theorem Accounted.sublist {l l' : List (Option Nat)} {n : Nat}
    (h : Accounted l n) (hs : l'.Sublist l) : Accounted l' n :=
  ⟨h.1.sublist hs, fun p hmem => h.2 p (hs.subset hmem)⟩

theorem Accounted.succ {l : List (Option Nat)} {n : Nat}
    (h : Accounted l n) : Accounted l (n + 1) := by
  refine ⟨h.1, fun p hmem => ?_⟩
  obtain ⟨k, hk, rfl⟩ := h.2 p hmem
  exact ⟨k, by omega, rfl⟩

/-- A new connection is none of them. -/
theorem Accounted.cons {l : List (Option Nat)} {n : Nat}
    (h : Accounted l n) : Accounted (some n :: l) (n + 1) := by
  refine ⟨List.nodup_cons.mpr ⟨fun hmem => ?_, h.1⟩, fun p hmem => ?_⟩
  · obtain ⟨k, hk, heq⟩ := h.2 _ hmem
    injection heq with heq
    omega
  · rcases List.mem_cons.mp hmem with rfl | hmem
    · exact ⟨n, by omega, rfl⟩
    · exact h.succ.2 p hmem

/-- The connections that are in the container or have been reported. -/
def seen (s : Service) : List (Option Nat) :=
  s.mConnections.filter (·.isSome) ++ s.disconnected

theorem seen_approved (incoming : List UInt8) (now : TimePoint)
    (s : Service) :
    (accept true incoming now s).seen.Perm (some s.created :: s.seen) := by
  show ((s.mConnections ++ [some s.created]).filter (·.isSome)
    ++ s.disconnected).Perm _
  rw [List.filter_append, List.append_assoc]
  exact List.perm_middle

/-- A connection that is dropped is reported. -/
theorem seen_drop {i k : Nat} (hi : s.mConnections[i]? = some (some k)) :
    (drop i (some k) s).seen.Perm s.seen := by
  show ((s.mConnections.set i none).filter (·.isSome)
    ++ (s.disconnected ++ [some k])).Perm _
  have hswap : (s.disconnected ++ [some k]).Perm
      ([some k] ++ s.disconnected) := List.perm_append_comm
  apply (hswap.append_left _).trans
  rw [← List.append_assoc]
  exact (Slots.perm_reset hi).append_right _

/-- The erase takes nobody out. -/
theorem filter_erased (b : Bool) (m : List (Option Nat)) :
    (erased b m).filter (·.isSome) = m.filter (·.isSome) := by
  cases b with
  | false => rfl
  | true => simp [erased, List.filter_filter]

-- ================================================================= results

/-- Null entries are where they may be, and every connection is in the
container once or has been reported once. -/
structure Tidy (s : Service) : Prop where
  nulls : Nulls s.mConnections s.task.position
  accounted : Accounted s.seen s.created

/-- No null entry between operations; `OnClientDisconnect` has been
called with no null pointer, and not twice with one connection. -/
structure Clean (s : Service) : Prop where
  container : s.task.isIdle = true → none ∉ s.mConnections
  reported : none ∉ s.disconnected
  once : s.disconnected.Nodup

theorem position_of_idle (h : s.task.isIdle = true) :
    s.task.position = none := by
  cases ht : s.task with
  | idle => rfl
  | _ => simp [ht, Task.isIdle] at h

theorem Tidy.clean (h : Tidy s) : Clean s := by
  obtain ⟨hnodup, hmade⟩ := h.accounted
  refine ⟨fun hidle => ?_, fun hmem => ?_, ?_⟩
  · have hnulls := h.nulls
    rw [position_of_idle hidle] at hnulls
    exact hnulls
  · obtain ⟨k, -, hk⟩ := hmade none (List.mem_append_right _ hmem)
    cases hk
  · exact (List.nodup_append.mp hnodup).2.1

/-- No `Send` of a loop throws once that loop has reset an entry. -/
def Steadfast (s : Service) : Action → Prop
  | .send => ∀ packet ignoredClient i k,
      s.task = .sending packet ignoredClient i true k →
      Connection.Sends packet (s.connection k)
  | _ => True

theorem tidy_move (h : Tidy s) (hg : Steadfast s a)
    (hmove : Move host ids s a s') : Tidy s' := by
  obtain ⟨hnulls, hacc⟩ := h
  cases hmove with
  | approves hidle =>
      rw [position_of_idle hidle] at hnulls
      refine ⟨?_, hacc.cons.perm (seen_approved _ _ s)⟩
      show Nulls (s.mConnections ++ [some s.created]) s.task.position
      rw [position_of_idle hidle]
      simpa [Nulls] using hnulls
  | denies hidle => exact ⟨hnulls, hacc.succ⟩
  | handles howns hstep => exact ⟨hnulls, hacc⟩
  | pops hqueue => exact ⟨hnulls, hacc⟩
  | broadcasts hidle =>
      rw [position_of_idle hidle] at hnulls
      exact ⟨.start hnulls, hacc⟩
  | sweeps hidle =>
      rw [position_of_idle hidle] at hnulls
      exact ⟨.start hnulls, hacc⟩
  | pings ht =>
      rw [ht] at hnulls
      exact ⟨.start hnulls, hacc⟩
  | @ends loop i b ht hi =>
      rw [ht] at hnulls
      have herased : none ∉ erased b s.mConnections := Nulls.erase hnulls
      have hseen : s.seen = (erased b s.mConnections).filter (·.isSome)
          ++ s.disconnected := by
        rw [filter_erased, seen]
      rw [hseen] at hacc
      refine ⟨?_, hacc⟩
      cases loop with
      | keepAlive oldestKeepAlive => exact herased
      | allClients packet ignoredClient => exact herased
  | @drops loop i b p ht hi hv =>
      rw [ht] at hnulls
      refine ⟨hnulls.reset hi, ?_⟩
      cases p with
      | none => exact (Slots.not_mem_drop_of_getElem? hnulls.1 hi).elim
      | some k => exact hacc.perm (seen_drop hi)
  | leaves ht hi hv =>
      rw [ht] at hnulls
      exact ⟨hnulls.skip, hacc⟩
  | picks ht hi hv =>
      rw [ht] at hnulls
      exact ⟨hnulls, hacc⟩
  | sends ht hsends hrun =>
      rw [ht] at hnulls
      exact ⟨hnulls, hacc⟩
  | @throws packet ignoredClient i k b ht hthrows =>
      rw [ht] at hnulls
      refine ⟨?_, hacc⟩
      show none ∉ s.mConnections
      cases b with
      | false => simpa using hnulls.2
      | true => exact absurd (hg packet ignoredClient i k ht) hthrows
  | posts ht hstep =>
      rw [ht] at hnulls
      exact ⟨hnulls.skip, hacc⟩

/-- A `Send` that throws after its loop has reset an entry leaves the
null pointer there. -/
theorem unclean_move (h : Tidy s) (hg : ¬ Steadfast s a)
    (hmove : Move host ids s a s') : ¬ Clean s' := by
  cases a with
  | send =>
      simp only [Steadfast, not_forall] at hg
      obtain ⟨packet, ignoredClient, i, k, ht, hthrows⟩ := hg
      have hnulls := h.nulls
      rw [ht] at hnulls
      intro hclean
      cases hmove with
      | sends ht' hsends hrun =>
          rw [ht] at ht'
          injection ht' with hpacket _ _ _ hk
          subst hpacket hk
          exact hthrows hsends
      | throws ht' hthrows' => exact hclean.container rfl (hnulls.2.mpr rfl)
  | _ => exact absurd trivial hg

/-- A server that has just started. -/
theorem tidy_start : Tidy start := by
  refine ⟨List.not_mem_nil, List.nodup_nil, ?_⟩
  intro p hmem
  cases hmem

/-- In every state of a run the container is clean between operations,
and the reports are, if and only if no `Send` of a loop throws once that
loop has reset an entry. -/
theorem clean_iff {acts : List Action}
    (hrun : Lts.run (step host ids) start acts = some s) :
    Lts.Always (step host ids) Clean start acts
      ↔ Lts.Meets (step host ids) Steadfast start acts := by
  apply Lts.always_iff_meets (J := Tidy) ?_ ?_ ?_ tidy_start hrun
  · intro s h
    exact h.clean
  · intro s a s' h hg hs
    exact tidy_move h hg (move_of_step hs)
  · intro s a s' h hg hs
    exact unclean_move h hg (move_of_step hs)

/-- Two clients. The first goes while nothing is being sent, the second
between the loop's `IsConnected()` and its `Send`. -/
def leaving : List Action :=
  [.accept true [] 0, .accept true [] 0, .io 0 (.readDone .header false 0),
    .sendAllClients ⟨1, pure ⟨⟩⟩ none, .next, .next,
    .io 1 (.readDone .header false 0), .send]

theorem clean_iff_leaving :
    ∃ s, Lts.run (step .little ⟨0xF0, 0xF1⟩) start leaving = some s
      ∧ (Lts.Always (step .little ⟨0xF0, 0xF1⟩) Clean start leaving
        ↔ Lts.Meets (step .little ⟨0xF0, 0xF1⟩) Steadfast start leaving) :=
  ⟨_, rfl, clean_iff rfl⟩

/-- The `Send` to the second throws with the first's entry reset, and the
next check reports a null pointer. -/
theorem null_left_behind :
    (∃ s, Lts.run (step .little ⟨0xF0, 0xF1⟩) start leaving = some s
        ∧ s.task.isIdle = true ∧ s.mConnections = [none, some 1])
      ∧ ∃ s, Lts.run (step .little ⟨0xF0, 0xF1⟩) start
          (leaving ++ [.sendKeepAlive 0, .next]) = some s
        ∧ s.disconnected = [some 0, none] :=
  ⟨⟨_, rfl, rfl, rfl⟩, _, rfl, rfl⟩

-- =============================================================== ownership

theorem owns_iff (s : Service) (k : Nat) :
    s.owns k = true ↔ some k ∈ s.mConnections
      ∨ ∃ m ∈ s.mMessageInQueue, m.first = some k := by
  simp [owns]

/-- Whoever owned a connection still does. -/
theorem owns_mono {k : Nat}
    (hentry : some k ∈ s.mConnections → some k ∈ s'.mConnections)
    (hqueue : ∀ m ∈ s.mMessageInQueue, m.first = some k →
      m ∈ s'.mMessageInQueue)
    (h : s.owns k = true) : s'.owns k = true := by
  rw [owns_iff] at h ⊢
  rcases h with h | ⟨m, hm, hfirst⟩
  · exact .inl (hentry h)
  · exact .inr ⟨m, hqueue m hm hfirst, hfirst⟩

/-- A connection with an operation or a posted handler outstanding is
owned. -/
def AllOwned (s : Service) : Prop :=
  ∀ k, (s.connection k).hasPending = true → s.owns k = true

/-- Whom the user's thread is sending to, and at which entry. -/
def Task.target : Task → Option (Nat × Nat)
  | .sending _ _ i _ k => some (i, k)
  | .posting _ _ i _ k => some (i, k)
  | _ => none

/-- Pending connections are owned, and a connection being sent to has its
entry. -/
structure Held (s : Service) : Prop where
  owned : AllOwned s
  entry : ∀ i k, s.task.target = some (i, k) →
    s.mConnections[i]? = some (some k)

/-- No connection has two entries. -/
def Distinct (s : Service) : Prop :=
  Accounted (s.mConnections.filter (·.isSome)) s.created

/-- A connection with something outstanding has its entry reset only while
a message in the queue owns it, and its message taken only while an entry
or another message does. -/
def Careful (s : Service) : Action → Prop
  | .next => ∀ loop i b k, s.task = .looping loop i b →
      s.mConnections[i]? = some (some k) →
      loop.visit s.toPacketServer (some k) = .drop →
      (s.connection k).hasPending = true →
      ∃ m ∈ s.mMessageInQueue, m.first = some k
  | .popMessage => ∀ m rest k, s.mMessageInQueue = m :: rest →
      m.first = some k → (s.connection k).hasPending = true →
      some k ∈ s.mConnections ∨ ∃ m' ∈ rest, m'.first = some k
  | _ => True

/-- A connection gets its entry when it is accepted, and no other. -/
theorem distinct_move (h : Distinct s) (hmove : Move host ids s a s') :
    Distinct s' := by
  cases hmove with
  | approves hidle =>
      refine h.cons.perm ?_
      show ((s.mConnections ++ [some s.created]).filter (·.isSome)).Perm _
      rw [List.filter_append]
      exact List.perm_append_singleton _ _
  | denies hidle => exact h.succ
  | @ends loop i b ht hi =>
      show Accounted ((erased b s.mConnections).filter (·.isSome)) _
      rw [filter_erased]
      exact h
  | drops ht hi hv => exact h.sublist (Slots.sublist_reset _ _)
  | _ => exact h

/-- The connections stay as they were and their owners too. -/
theorem AllOwned.mono (h : AllOwned s) (hconn : s'.connection = s.connection)
    (howns : ∀ k, s.owns k = true → s'.owns k = true) : AllOwned s' := by
  intro k hpending
  rw [hconn] at hpending
  exact howns k (h k hpending)

/-- One connection, which is owned, did something. -/
theorem AllOwned.update (h : AllOwned s) {k : Nat} {c : Connection}
    (hconn : s'.connection = Function.update s.connection k c)
    (hk : s'.owns k = true)
    (howns : ∀ j, s.owns j = true → s'.owns j = true) : AllOwned s' := by
  intro j hpending
  by_cases hj : j = k
  · rw [hj]
    exact hk
  · rw [hconn, Function.update_of_ne hj] at hpending
    exact howns j (h j hpending)

theorem Held.target_owned (h : Held s) {i k : Nat}
    (ht : s.task.target = some (i, k)) : s.owns k = true := by
  rw [owns_iff]
  exact .inl (List.mem_of_getElem? (h.entry i k ht))

theorem target_of_idle (h : s.task.isIdle = true) : s.task.target = none := by
  cases ht : s.task with
  | idle => rfl
  | _ => simp [ht, Task.isIdle] at h

/-- Only a connected entry is sent to. -/
theorem of_visit_send {packet : IPacket} {ignoredClient p : Option Nat}
    {k : Nat} (hv : Loop.visit s.toPacketServer
      (.allClients packet ignoredClient) p = .send k) : p = some k := by
  cases p with
  | none => cases hv
  | some j =>
      simp only [Loop.visit] at hv
      split at hv
      · split at hv
        · injection hv with hv
          rw [hv]
        · cases hv
      · split at hv
        · cases hv
        · cases hv

/-- A loop drops an entry. -/
theorem allOwned_drop {loop : Loop} {i : Nat} {b : Bool} {p : Option Nat}
    (h : AllOwned s) (hg : Careful s .next)
    (ht : s.task = .looping loop i b) (hi : s.mConnections[i]? = some p)
    (hv : loop.visit s.toPacketServer p = .drop) : AllOwned (drop i p s) := by
  intro k hpending
  by_cases hp : p = some k
  · subst hp
    rw [owns_iff]
    exact .inr (hg loop i b k ht hi hv hpending)
  · refine owns_mono (s := s) ?_ (fun _ hm _ => hm) (h k hpending)
    exact Slots.mem_reset hi fun heq => hp heq.symm

/-- `Update()` takes a message. -/
theorem allOwned_pop {m : OwnedMessage} {rest : List OwnedMessage}
    (h : AllOwned s) (hg : Careful s .popMessage)
    (hqueue : s.mMessageInQueue = m :: rest) :
    AllOwned { s with mMessageInQueue := rest } := by
  intro k hpending
  by_cases hfirst : m.first = some k
  · rw [owns_iff]
    exact hg m rest k hqueue hfirst hpending
  · refine owns_mono (s := s) id (fun m' hm' hfirst' => ?_) (h k hpending)
    rw [hqueue] at hm'
    rcases List.mem_cons.mp hm' with rfl | hm'
    · exact absurd hfirst' hfirst
    · exact hm'

theorem held_move (h : Held s) (hg : Careful s a)
    (hmove : Move host ids s a s') : Held s' := by
  have hsame (k : Nat) : s.owns k = true → s.owns k = true := id
  cases hmove with
  | approves hidle =>
      refine ⟨?_, fun i k ht => ?_⟩
      · apply h.owned.update rfl
        · rw [owns_iff]
          exact .inl (List.mem_append_right _ (List.mem_singleton_self _))
        · intro j
          exact owns_mono (List.mem_append_left _) fun _ hm _ => hm
      · have hnone : s.task.target = some (i, k) := ht
        rw [target_of_idle hidle] at hnone
        cases hnone
  | denies hidle =>
      refine ⟨fun k hpending => ?_, h.entry⟩
      by_cases hk : k = s.created
      · -- the connection that was denied has nothing outstanding
        subst hk
        simp only [accept, Bool.false_eq_true, if_false,
          Function.update_self] at hpending
        cases hpending
      · simp only [accept, Bool.false_eq_true, if_false,
          Function.update_of_ne hk] at hpending
        exact h.owned k hpending
  | @handles k b c howns hstep =>
      have hgrows (j : Nat) : s.owns j = true → (handled k c s).owns j = true :=
        owns_mono id fun _ hm _ => List.mem_append_left _ hm
      exact ⟨h.owned.update rfl (hgrows k howns) hgrows, h.entry⟩
  | pops hqueue => exact ⟨allOwned_pop h.owned hg hqueue, h.entry⟩
  | broadcasts hidle => exact ⟨h.owned.mono rfl hsame, nofun⟩
  | sweeps hidle => exact ⟨h.owned.mono rfl hsame, nofun⟩
  | pings ht => exact ⟨h.owned.mono rfl hsame, nofun⟩
  | @ends loop i b ht hi =>
      refine ⟨h.owned.mono rfl ?_, ?_⟩
      · intro k
        exact owns_mono mem_erased.mpr fun _ hm _ => hm
      · cases loop with
        | keepAlive oldestKeepAlive => exact nofun
        | allClients packet ignoredClient => exact nofun
  | drops ht hi hv => exact ⟨allOwned_drop h.owned hg ht hi hv, nofun⟩
  | leaves ht hi hv => exact ⟨h.owned.mono rfl hsame, nofun⟩
  | @picks packet ignoredClient i k b p ht hi hv =>
      refine ⟨h.owned.mono rfl hsame, fun j l htarget => ?_⟩
      have heq : some (i, k) = some (j, l) := htarget
      simp only [Option.some.injEq, Prod.mk.injEq] at heq
      rw [← heq.1, ← heq.2, hi, of_visit_send hv]
  | @sends packet ignoredClient i k b c ht hsends hrun =>
      have htarget : s.task.target = some (i, k) := by rw [ht]; rfl
      refine ⟨h.owned.update rfl (h.target_owned htarget) hsame, ?_⟩
      intro j l hjl
      exact h.entry j l (htarget.trans hjl)
  | throws ht hthrows => exact ⟨h.owned.mono rfl hsame, nofun⟩
  | @posts packet ignoredClient i k b c ht hstep =>
      have htarget : s.task.target = some (i, k) := by rw [ht]; rfl
      exact ⟨h.owned.update rfl (h.target_owned htarget) hsame, nofun⟩

/-- Where the loop drops an entry, the next step does. -/
theorem of_move_drop {loop : Loop} {i : Nat} {b : Bool} {p : Option Nat}
    (ht : s.task = .looping loop i b) (hi : s.mConnections[i]? = some p)
    (hv : loop.visit s.toPacketServer p = .drop)
    (hmove : Move host ids s .next s') :
    s' = { drop i p s with task := .looping loop (i + 1) true } := by
  cases hmove with
  | ends ht' hi' =>
      rw [ht] at ht'
      cases ht'
      rw [hi] at hi'
      cases hi'
  | drops ht' hi' hv' =>
      rw [ht] at ht'
      cases ht'
      rw [hi] at hi'
      cases hi'
      rfl
  | leaves ht' hi' hv' =>
      rw [ht] at ht'
      cases ht'
      rw [hi] at hi'
      cases hi'
      exact absurd hv hv'
  | picks ht' hi' hv' =>
      rw [ht] at ht'
      cases ht'
      rw [hi] at hi'
      cases hi'
      rw [hv] at hv'
      cases hv'

/-- A step that takes the last owner away leaves the connection pending
and unowned. -/
theorem unowned_move (h : Distinct s) (hg : ¬ Careful s a)
    (hmove : Move host ids s a s') : ¬ AllOwned s' := by
  cases a with
  | next =>
      simp only [Careful, not_forall] at hg
      obtain ⟨loop, i, b, k, ht, hi, hv, hpending, hnot⟩ := hg
      intro howned
      have hs' := of_move_drop ht hi hv hmove
      subst hs'
      rcases (owns_iff _ k).mp (howned k hpending) with hentry | hqueue
      · exact Slots.not_mem_reset h.1 hi hentry
      · exact hnot hqueue
  | popMessage =>
      simp only [Careful, not_forall] at hg
      obtain ⟨m, rest, k, hqueue, hfirst, hpending, hnot⟩ := hg
      intro howned
      cases hmove with
      | pops hqueue' =>
          rw [hqueue] at hqueue'
          cases hqueue'
          exact hnot ((owns_iff _ k).mp (howned k hpending))
  | _ => exact absurd trivial hg

theorem held_start : Held start := by
  refine ⟨fun k hpending => ?_, nofun⟩
  cases hpending

theorem distinct_start : Distinct start := by
  refine ⟨List.nodup_nil, ?_⟩
  intro p hmem
  cases hmem

/-- In every state of a run every connection with something outstanding
is owned if and only if no step takes the last owner of such a
connection away. -/
theorem owned_iff {acts : List Action}
    (hrun : Lts.run (step host ids) start acts = some s) :
    Lts.Always (step host ids) AllOwned start acts
      ↔ Lts.Meets (step host ids) Careful start acts := by
  apply Lts.always_iff_meets (J := fun s => Held s ∧ Distinct s) ?_ ?_ ?_
    ⟨held_start, distinct_start⟩ hrun
  · intro s h
    exact h.1.owned
  · intro s a s' h hg hs
    have hmove := move_of_step hs
    exact ⟨held_move h.1 hg hmove, distinct_move h.2 hmove⟩
  · intro s a s' h hg hs
    exact unowned_move h.2 hg (move_of_step hs)

/-- A client whose last KeepAlive is too old, with the read of its next
header outstanding. -/
def late : List Action :=
  [.accept true [] 0, .sendKeepAlive 50000000000, .next]

theorem owned_iff_late :
    ∃ s, Lts.run (step .little ⟨0xF0, 0xF1⟩) start late = some s
      ∧ (Lts.Always (step .little ⟨0xF0, 0xF1⟩) AllOwned start late
        ↔ Lts.Meets (step .little ⟨0xF0, 0xF1⟩) Careful start late) :=
  ⟨_, rfl, owned_iff rfl⟩

/-- The sweep resets its entry, and nobody owns it any more. -/
theorem pending_unowned :
    ∃ s, Lts.run (step .little ⟨0xF0, 0xF1⟩) start late = some s
      ∧ (s.connection 0).reads = [.header]
      ∧ (s.connection 0).hasPending = true
      ∧ s.owns 0 = false :=
  ⟨_, rfl, rfl, rfl, rfl⟩

end Service

end AWEnginePacket
