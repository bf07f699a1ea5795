/-
The life of a `PacketClient`.

`Move` says what each step does, once; everything below is read off it.
Three results about the methods a user starts and ends a session with.

- `m_CurrentStatus` is never assigned, so the test at the head of
  `Connect()` never fires (`connect_not_guarded`).
- The io thread is joined where a session ends by `Disconnect()`. Where
  the connection is closed first, or is still being made, `Disconnect()`
  returns early and the handle stays joinable (`joined_before_reuse`,
  `closed_connection_terminates`, `misused_of_joinable`).
- `stop()` is never undone, so the first session to be disconnected is
  the last one whose context runs (`connect_runnable_iff`).

What the client does with its connection is a run of `Connection`
(`session_lived`), so the results about connections hold of it.
-/
import AWEnginePacket.Lib.Lts
import AWEnginePacket.Model.Client
import AWEnginePacket.Proofs.Reading

namespace AWEnginePacket

open Endian (ByteOrder)
open Effect

namespace PacketClient

variable {host : ByteOrder} {ids : PacketIDs} {disconnectID : UInt8}
  {c c' : PacketClient} {a : Action} {env : ConnectEnv}
  {gameName : ProtocolGameName} {gameVersion : UInt32}

-- ============================================================= connecting

/-- `Connect()` reports a failure. -/
def failed (c : PacketClient) : PacketClient :=
  { c with
    mLastDisconnectInfo :=
      { reason := .connectionError, translateMessage := false
        message := "Failed to connect" } }

variable (host ids) in
/-- A client that has begun to connect. -/
def connecting (env : ConnectEnv) (c : PacketClient) : PacketClient :=
  { c with
    mConnection := some (after
      (Connection.connectToServer (some (initPacket host ids env c)))
      (Connection.create c.sessions .toServer false env.incoming env.now))
    sessions := c.sessions + 1
    dangling := c.dangling || c.mConnection.any (·.hasPending) }

/-- The handle takes the new thread. -/
theorem run_startThread (hj : c.mThreadContext.joinable = false) :
    (startThread true).run c
      = .ok ⟨⟩ { c with mThreadContext := .running } := by
  unfold startThread
  rw [if_neg (by simp), EStateM.run_bind, EStateM.run_get]
  simp only
  rw [if_neg (by simp [hj])]
  rfl

/-- A joinable handle does not. -/
theorem run_startThread_joinable (hj : c.mThreadContext.joinable = true) :
    (startThread true).run c = .error (.terminated .joinableAssigned) c := by
  unfold startThread
  rw [if_neg (by simp), EStateM.run_bind, EStateM.run_get]
  simp only
  rw [if_pos hj]
  rfl

/-- The name resolves to something: what follows starts the thread. -/
theorem run_tryConnect (hr : env.resolves = true)
    (he : env.endpointsEmpty = false) :
    (tryConnect host ids env).run c
      = (startThread env.threadStarts).run (connecting host ids env c) := by
  unfold tryConnect
  rw [if_neg (by simp [hr]), if_neg (by simp [he])]
  rfl

/-- It does not. -/
theorem run_tryConnect_unresolved
    (h : env.resolves = false ∨ env.endpointsEmpty = true) :
    ∃ e, (tryConnect host ids env).run c = .error (.thrown e) c := by
  unfold tryConnect
  by_cases hr : env.resolves = true
  · rcases h with h | h
    · rw [hr] at h
      cases h
    · rw [if_neg (by simp [hr]), if_pos h]
      exact ⟨_, rfl⟩
  · rw [if_pos (by simpa using hr)]
    exact ⟨_, rfl⟩

/-- The test at the head of `Connect()` lets everything pass. -/
theorem run_connect (hstatus : c.mCurrentStatus = .disconnected) :
    (connect host ids env).run c
      = (tryCatch (do tryConnect host ids env; pure true)
          connectFailed : ClientM Bool).run c := by
  unfold connect
  rw [EStateM.run_bind, EStateM.run_get]
  simp only
  rw [if_neg (by simp [hstatus])]

/-- Nothing but `m_CurrentStatus` makes `Connect()` throw. -/
theorem run_connect_guarded (hstatus : c.mCurrentStatus ≠ .disconnected) :
    (connect host ids env).run c = .error alreadyConnected c := by
  unfold connect
  rw [EStateM.run_bind, EStateM.run_get]
  simp only
  rw [if_pos hstatus]
  rfl

theorem connect_of_ok {s : PacketClient} {u : PUnit}
    (hstatus : c.mCurrentStatus = .disconnected)
    (h : (tryConnect host ids env).run c = .ok u s) :
    (connect host ids env).run c = .ok true s := by
  rw [run_connect hstatus]
  exact run_tryCatch_of_ok (run_bind_of_ok h)

theorem connect_of_error {s : PacketClient} {e : Exit}
    (hstatus : c.mCurrentStatus = .disconnected)
    (h : (tryConnect host ids env).run c = .error e s) :
    (connect host ids env).run c = (connectFailed e).run s := by
  rw [run_connect hstatus]
  exact run_tryCatch_of_error (run_bind_of_error h)

/-- The name resolves, and to something. -/
def ConnectEnv.found (env : ConnectEnv) : Bool :=
  env.resolves && !env.endpointsEmpty

theorem connect_unfound (hstatus : c.mCurrentStatus = .disconnected)
    (h : env.found = false) :
    (connect host ids env).run c = .ok false (failed c) := by
  have hun : env.resolves = false ∨ env.endpointsEmpty = true := by
    cases hr : env.resolves with
    | false => exact .inl rfl
    | true => exact .inr (by simpa [ConnectEnv.found, hr] using h)
  obtain ⟨e, htry⟩ := @run_tryConnect_unresolved host ids c env hun
  exact connect_of_error hstatus htry

/-- Past the name, everything depends on the thread. -/
theorem run_tryConnect_found (h : env.found = true) :
    (tryConnect host ids env).run c
      = (startThread env.threadStarts).run (connecting host ids env c) := by
  simp only [ConnectEnv.found, Bool.and_eq_true, Bool.not_eq_true'] at h
  exact run_tryConnect h.1 h.2

section found

variable (hstatus : c.mCurrentStatus = .disconnected)
  (h : env.found = true)
include hstatus h

theorem connect_threadless (hthread : env.threadStarts = false) :
    (connect host ids env).run c
      = .ok false (failed (connecting host ids env c)) := by
  have htry := @run_tryConnect_found host ids c env h
  rw [hthread] at htry
  exact connect_of_error hstatus (htry.trans rfl)

theorem connect_joinable (hthread : env.threadStarts = true)
    (hj : c.mThreadContext.joinable = true) :
    (connect host ids env).run c
      = .error (.terminated .joinableAssigned)
        (connecting host ids env c) := by
  have htry := @run_tryConnect_found host ids c env h
  rw [hthread] at htry
  exact connect_of_error hstatus (htry.trans (run_startThread_joinable hj))

theorem connect_starts (hthread : env.threadStarts = true)
    (hj : c.mThreadContext.joinable = false) :
    (connect host ids env).run c = .ok true
      { connecting host ids env c with mThreadContext := .running } := by
  have htry := @run_tryConnect_found host ids c env h
  rw [hthread] at htry
  exact connect_of_ok hstatus (htry.trans (run_startThread hj))

end found

/-- The ways `Connect()` ends. -/
inductive Connects (host : ByteOrder) (ids : PacketIDs) (env : ConnectEnv)
    (c : PacketClient) : EStateM.Result Exit PacketClient Bool → Prop
  /-- The name does not resolve. -/
  | unresolved (h : env.resolves = false ∨ env.endpointsEmpty = true) :
      Connects host ids env c (.ok false (failed c))
  /-- The system has no thread. -/
  | threadless (h : env.threadStarts = false) :
      Connects host ids env c (.ok false (failed (connecting host ids env c)))
  | terminates (hj : c.mThreadContext.joinable = true) :
      Connects host ids env c
        (.error (.terminated .joinableAssigned) (connecting host ids env c))
  | connects (hj : c.mThreadContext.joinable = false) :
      Connects host ids env c (.ok true
        { connecting host ids env c with mThreadContext := .running })

theorem connect_cases (hstatus : c.mCurrentStatus = .disconnected) :
    Connects host ids env c ((connect host ids env).run c) := by
  cases h : env.found with
  | true =>
      cases hthread : env.threadStarts with
      | false =>
          rw [connect_threadless hstatus h hthread]
          exact .threadless hthread
      | true =>
          cases hj : c.mThreadContext.joinable with
          | false =>
              rw [connect_starts hstatus h hthread hj]
              exact .connects hj
          | true =>
              rw [connect_joinable hstatus h hthread hj]
              exact .terminates hj
  | false =>
      rw [connect_unfound hstatus h]
      apply Connects.unresolved
      cases hr : env.resolves with
      | false => exact .inl rfl
      | true => exact .inr (by simpa [ConnectEnv.found, hr] using h)

-- ========================================================== disconnecting

/-- A call has returned; the destructor has destroyed the members. -/
def finished (call : DisconnectCall) (c : PacketClient) : PacketClient :=
  { c with
    user := .idle
    fate :=
      if call = .destructor then
        some (if c.mThreadContext.joinable then .joinableDestroyed
          else .destroyed)
      else c.fate }

/-- A call has ended by an exception. -/
def threw (call : DisconnectCall) (c : PacketClient) : PacketClient :=
  { c with
    user := .idle
    fate := if call = .destructor then some .destructorThrew else c.fate }

/-- The session is over. -/
def ended (call : DisconnectCall) (c : PacketClient) : PacketClient :=
  { c with
    mIoContextStopped := true
    mThreadContext := .none
    mConnection := none
    mLastDisconnectInfo :=
      { reason := .clientRequest, translateMessage := false
        message := call.message } }

theorem userCall_finish (call : DisconnectCall) (c : PacketClient) :
    userCall (finish call) c = finished call c := by
  cases call with
  | disconnect => rfl
  | disconnectWithError => rfl
  | destructor =>
      have hrun : (finish .destructor).run c
          = destroyMembers.run { c with user := .idle } := rfl
      cases hj : c.mThreadContext.joinable with
      | true => simp [userCall, hrun, destroyMembers, finished, hj]
      | false => simp [userCall, hrun, destroyMembers, finished, hj]

theorem userCall_disconnectEnd (call : DisconnectCall) (c : PacketClient) :
    userCall (disconnectEnd call) c = finished call (ended call c) :=
  userCall_finish call (ended call c)

theorem userCall_disconnectTest (call : DisconnectCall) (c : PacketClient) :
    userCall (disconnectTest call) c
      = if c.isConnected then { c with user := .sending call }
        else finished call c := by
  rw [← userCall_finish]
  unfold userCall disconnectTest
  rw [EStateM.run_bind, EStateM.run_get]
  simp only
  cases hc : c.isConnected with
  | true => rfl
  | false => rfl

section onConnection

variable {m : ConnM PUnit} {conn conn' : Connection} {u : PUnit} {e : Fault}

theorem run_onConnection_of_none (hconn : c.mConnection = none) :
    (onConnection m).run c
      = .error (.thrown (.undefined "null m_Connection")) c := by
  simp only [onConnection, EStateM.run, hconn]

theorem run_onConnection_of_ok (hconn : c.mConnection = some conn)
    (h : m.run conn = .ok u conn') :
    (onConnection m).run c = .ok ⟨⟩ { c with mConnection := some conn' } := by
  simp only [onConnection, EStateM.run, hconn]
  rw [EStateM.run] at h
  rw [h]

theorem run_onConnection_of_error (hconn : c.mConnection = some conn)
    (h : m.run conn = .error e conn') :
    (onConnection m).run c
      = .error (.thrown e) { c with mConnection := some conn' } := by
  simp only [onConnection, EStateM.run, hconn]
  rw [EStateM.run] at h
  rw [h]

/-- `Send` up to its `asio::post`, called on the connection, which stays
as it was if `Send` throws. -/
theorem run_sendBegin (packet : IPacket) (hconn : c.mConnection = some conn) :
    (∃ conn', (onConnection (Connection.sendBegin host ids packet)).run c
          = .ok ⟨⟩ { c with mConnection := some conn' }
        ∧ (Connection.sendBegin host ids packet).run conn = .ok ⟨⟩ conn')
      ∨ ∃ e, (onConnection (Connection.sendBegin host ids packet)).run c
          = .error (.thrown e) c := by
  rcases Connection.sendBegin_cases host ids packet conn
    with ⟨-, conn', hrun⟩ | ⟨-, e, hrun⟩
  · exact .inl ⟨conn', run_onConnection_of_ok hconn hrun, hrun⟩
  · refine .inr ⟨e, (run_onConnection_of_error hconn hrun).trans ?_⟩
    rw [← hconn]

end onConnection

-- ================================================================= moves

variable (host ids) in
/-- What each step does. -/
inductive Move (c : PacketClient) : Action → PacketClient → Prop
  | refused {env : ConnectEnv} (hstatus : c.mCurrentStatus ≠ .disconnected) :
      Move c (.connect env) c
  | unresolved {env : ConnectEnv} (hu : c.user = .idle) :
      Move c (.connect env) (failed c)
  | threadless {env : ConnectEnv} (hu : c.user = .idle) :
      Move c (.connect env) (failed (connecting host ids env c))
  | terminates {env : ConnectEnv} (hu : c.user = .idle)
      (hj : c.mThreadContext.joinable = true) :
      Move c (.connect env)
        { connecting host ids env c with fate := some .joinableAssigned }
  | connects {env : ConnectEnv} (hu : c.user = .idle)
      (hj : c.mThreadContext.joinable = false) :
      Move c (.connect env)
        { connecting host ids env c with mThreadContext := .running }
  | test {call : DisconnectCall} (hu : c.user = .idle)
      (hc : c.isConnected = true) :
      Move c (.disconnectTest call) { c with user := .sending call }
  | early {call : DisconnectCall} (hu : c.user = .idle)
      (hc : c.isConnected = false) :
      Move c (.disconnectTest call) (finished call c)
  | sends {call : DisconnectCall} {packet : IPacket}
      {conn conn' : Connection}
      (hu : c.user = .sending call) (hconn : c.mConnection = some conn)
      (hsend : (Connection.sendBegin host ids packet).run conn
        = .ok ⟨⟩ conn') :
      Move c .disconnectSend
        { c with mConnection := some conn', user := .posting (some call) }
  | throws {call : DisconnectCall} (hu : c.user = .sending call) :
      Move c .disconnectSend (threw call c)
  | ends {call : DisconnectCall} (hu : c.user = .waiting call) :
      Move c .disconnectEnd (finished call (ended call c))
  | userSends {packet : IPacket} {conn conn' : Connection}
      (hu : c.user = .idle) (hconn : c.mConnection = some conn)
      (hsend : (Connection.sendBegin host ids packet).run conn
        = .ok ⟨⟩ conn') :
      Move c (.send packet)
        { c with mConnection := some conn', user := .posting none }
  | userThrows {packet : IPacket} (hu : c.user = .idle) :
      Move c (.send packet) c
  | posts {call : Option DisconnectCall} {conn conn' : Connection}
      (hu : c.user = .posting call) (hconn : c.mConnection = some conn)
      (hstep : Connection.step host ids (.sendEnd 0) conn = some conn') :
      Move c .post
        { stepped c conn conn' with user := call.elim .idle .waiting }
  | pops (hu : c.user = .idle) (hne : c.receiveQueue ≠ []) :
      Move c .popFront { c with receiveQueue := c.receiveQueue.tail }
  | handles {a : Connection.Action} {conn conn' : Connection}
      (ha : a.isHandler = true) (hruns : c.runs = true)
      (hconn : c.mConnection = some conn)
      (hstep : Connection.step host ids a conn = some conn') :
      Move c (.io a) (stepped c conn conn')
  | returns (hrunning : c.mThreadContext = .running)
      (hwork : c.mIoContextStopped = true ∨ c.outOfWork = true) :
      Move c .runReturns
        { c with mThreadContext := .returned, mIoContextStopped := true }
  | dangles (hd : c.dangling = true) (hruns : c.runs = true) :
      Move c .danglingHandler { c with fate := some .danglingHandler }

theorem of_connectionStep {a : Connection.Action}
    (h : connectionStep host ids a c = some c') :
    ∃ conn conn', c.mConnection = some conn
      ∧ Connection.step host ids a conn = some conn'
      ∧ c' = stepped c conn conn' := by
  unfold connectionStep at h
  cases hconn : c.mConnection with
  | none =>
      rw [hconn] at h
      cases h
  | some conn =>
      rw [hconn] at h
      obtain ⟨conn', hstep, hc'⟩ := Option.map_eq_some_iff.mp h
      exact ⟨conn, conn', rfl, hstep, hc'.symm⟩

theorem move_connect (hu : c.user = .idle) :
    Move host ids c (.connect env) (userCall (connect host ids env) c) := by
  unfold userCall
  by_cases hstatus : c.mCurrentStatus = .disconnected
  · have hcases := @connect_cases host ids c env hstatus
    generalize (connect host ids env).run c = r at hcases ⊢
    cases hcases with
    | unresolved h => exact .unresolved hu
    | threadless h => exact .threadless hu
    | terminates hj => exact .terminates hu hj
    | connects hj => exact .connects hu hj
  · rw [run_connect_guarded hstatus]
    exact .refused hstatus

theorem move_disconnectTest (hu : c.user = .idle) (call : DisconnectCall) :
    Move host ids c (.disconnectTest call) (userCall (disconnectTest call) c) := by
  rw [userCall_disconnectTest]
  cases hc : c.isConnected with
  | true => exact .test hu hc
  | false => exact .early hu hc

theorem move_disconnectSend {call : DisconnectCall}
    (hu : c.user = .sending call) :
    Move host ids c .disconnectSend
      (userCall (disconnectSend host ids disconnectID call) c) := by
  have hthrows {e : Fault}
      (hrun : (onConnection (Connection.sendBegin host ids
        (disconnectPacket disconnectID))).run c = .error (.thrown e) c) :
      Move host ids c .disconnectSend
        (userCall (disconnectSend host ids disconnectID call) c) := by
    have hcaught : (disconnectSend host ids disconnectID call).run c
        = (disconnectThrew call (.thrown e)).run c :=
      run_tryCatch_of_error (run_bind_of_error hrun)
    rw [userCall, hcaught]
    cases call with
    | disconnect => exact .throws hu
    | disconnectWithError => exact .throws hu
    | destructor => exact .throws hu
  cases hconn : c.mConnection with
  | none =>
      exact hthrows (run_onConnection_of_none hconn)
  | some conn =>
      rcases @run_sendBegin host ids c conn (disconnectPacket disconnectID)
        hconn with ⟨conn', hrun, hsend⟩ | ⟨e, hrun⟩
      · have hsent : (disconnectSend host ids disconnectID call).run c
            = .ok ⟨⟩ { c with mConnection := some conn'
                              user := .posting (some call) } :=
          run_tryCatch_of_ok (run_bind_of_ok hrun)
        rw [userCall, hsent]
        exact .sends hu hconn hsend
      · exact hthrows hrun

theorem move_send {packet : IPacket} (hu : c.user = .idle)
    (hsome : c.mConnection.isSome = true) :
    Move host ids c (.send packet) (userCall (send host ids packet) c) := by
  obtain ⟨conn, hconn⟩ := Option.isSome_iff_exists.mp hsome
  rcases @run_sendBegin host ids c conn packet hconn
    with ⟨conn', hrun, hsend⟩ | ⟨e, hrun⟩
  · have hsent : (send host ids packet).run c
        = .ok ⟨⟩ { c with mConnection := some conn', user := .posting none } :=
      run_bind_of_ok hrun
    rw [userCall, hsent]
    exact .userSends hu hconn hsend
  · have hthrew : (send host ids packet).run c = .error (.thrown e) c :=
      run_bind_of_error hrun
    rw [userCall, hthrew]
    exact .userThrows hu

/-- A step is a move of a client that lives. -/
theorem move_of_step (h : step host ids disconnectID a c = some c') :
    c.fate = none ∧ Move host ids c a c' := by
  unfold step at h
  split at h
  case isTrue => cases h
  case isFalse hfate =>
    refine ⟨by simpa using hfate, ?_⟩
    cases a with
    | connect env =>
        obtain ⟨hu, rfl⟩ := Lts.of_guarded h
        exact move_connect hu
    | disconnectTest call =>
        obtain ⟨hu, rfl⟩ := Lts.of_guarded h
        exact move_disconnectTest hu call
    | disconnectSend =>
        cases hu : c.user with
        | sending call =>
            simp only [event, hu, Option.some.injEq] at h
            rw [← h]
            exact move_disconnectSend hu
        | _ => simp [event, hu] at h
    | disconnectEnd =>
        cases hu : c.user with
        | waiting call =>
            simp only [event, hu, Option.some.injEq] at h
            rw [← h, userCall_disconnectEnd]
            exact .ends hu
        | _ => simp [event, hu] at h
    | send packet =>
        obtain ⟨⟨hu, hsome⟩, rfl⟩ := Lts.of_guarded h
        exact move_send hu hsome
    | post =>
        cases hu : c.user with
        | posting call =>
            simp only [event, hu] at h
            obtain ⟨c₁, h₁, rfl⟩ := Option.map_eq_some_iff.mp h
            obtain ⟨conn, conn', hconn, hstep, rfl⟩ := of_connectionStep h₁
            exact .posts hu hconn hstep
        | _ => simp [event, hu] at h
    | popFront =>
        obtain ⟨⟨hu, hne⟩, rfl⟩ := Lts.of_guarded h
        exact .pops hu hne
    | io a =>
        simp only [event] at h
        split at h
        case isFalse => cases h
        case isTrue hio =>
          rw [Bool.and_eq_true] at hio
          obtain ⟨conn, conn', hconn, hstep, rfl⟩ := of_connectionStep h
          exact .handles hio.1 hio.2 hconn hstep
    | runReturns =>
        obtain ⟨⟨hrunning, hwork⟩, rfl⟩ := Lts.of_guarded h
        exact .returns hrunning hwork
    | danglingHandler =>
        obtain ⟨hio, rfl⟩ := Lts.of_guarded h
        rw [Bool.and_eq_true] at hio
        exact .dangles hio.1 hio.2

-- ============================================================= sessions

variable (host ids) in
/-- The connection of a client is where events of its own have led it from
the start of a connect. -/
structure Lived (c : PacketClient) (conn : Connection) : Prop where
  lives : ∃ self packet incoming now,
    Lts.Reaches (Connection.step host ids)
      (after (Connection.connectToServer (some packet))
        (Connection.create self .toServer false incoming now)) conn
  intact : c.fate = none → conn.escaped = none

/-- One more event. -/
theorem Lived.event {conn conn' : Connection} {b : Connection.Action}
    (h : Lived host ids c conn)
    (hstep : Connection.step host ids b conn = some conn')
    (hintact : c'.fate = none → conn'.escaped = none) :
    Lived host ids c' conn' := by
  obtain ⟨self, packet, incoming, now, hreach⟩ := h.lives
  exact ⟨⟨self, packet, incoming, now, hreach.snoc hstep⟩, hintact⟩

/-- The first half of a `Send`. -/
theorem Lived.sendBegin {conn conn' : Connection} {packet : IPacket}
    (h : Lived host ids c conn) (hfate : c.fate = none)
    (hsend : (Connection.sendBegin host ids packet).run conn = .ok ⟨⟩ conn') :
    Lived host ids c' conn' := by
  have hesc := h.intact hfate
  have hrel := (Connection.sendBegin_keeps_reading packet).of_ok hsend
  exact h.event (Connection.step_sendBegin hesc hsend)
    fun _ => hrel.2.2.trans hesc

/-- A step of the client takes its connection by an event, makes a new
one, or leaves it alone. -/
theorem lived_move (h : ∀ conn, c.mConnection = some conn →
      Lived host ids c conn) (hfate : c.fate = none)
    (hmove : Move host ids c a c') {conn : Connection}
    (hconn' : c'.mConnection = some conn) : Lived host ids c' conn := by
  -- the ways a step leaves the connection alone
  have hsame (hconn : c.mConnection = some conn) : Lived host ids c' conn := by
    have hold := h conn hconn
    exact ⟨hold.lives, fun _ => hold.intact hfate⟩
  have hnew {env : ConnectEnv}
      (heq : c'.mConnection = (connecting host ids env c).mConnection) :
      Lived host ids c' conn := by
    rw [heq] at hconn'
    injection hconn' with hconn'
    subst hconn'
    exact ⟨⟨c.sessions, _, env.incoming, env.now, .refl _⟩, fun _ => rfl⟩
  have hstepped {b : Connection.Action} {conn₀ conn₁ : Connection}
      (hconn₀ : c.mConnection = some conn₀)
      (hstep : Connection.step host ids b conn₀ = some conn₁)
      (heq : c'.mConnection = some conn₁)
      (hf : c'.fate = (stepped c conn₀ conn₁).fate) :
      Lived host ids c' conn := by
    rw [heq] at hconn'
    injection hconn' with hconn'
    subst hconn'
    apply (h conn₀ hconn₀).event hstep
    intro hnone
    rw [hf] at hnone
    cases hesc : conn₁.escaped with
    | none => rfl
    | some e => simp [stepped, hesc] at hnone
  cases hmove with
  | threadless hu => exact hnew rfl
  | terminates hu hj => exact hnew rfl
  | connects hu hj => exact hnew rfl
  | @sends call packet conn₀ conn₁ hu hconn hsend =>
      injection hconn' with hconn'
      subst hconn'
      exact (h conn₀ hconn).sendBegin hfate hsend
  | @userSends packet conn₀ conn₁ hu hconn hsend =>
      injection hconn' with hconn'
      subst hconn'
      exact (h conn₀ hconn).sendBegin hfate hsend
  | posts hu hconn hstep => exact hstepped hconn hstep rfl rfl
  | handles ha hruns hconn hstep => exact hstepped hconn hstep rfl rfl
  | ends hu => cases hconn'
  | _ => exact hsame hconn'

/-- The connection of a client is one that connected to a server and has
had events of its own since: what holds of every run of a `Connection`
holds of it. -/
theorem session_lived {acts : List Action} {conn : Connection}
    (hrun : Lts.run (step host ids disconnectID)
      (create gameName gameVersion) acts = some c)
    (hconn : c.mConnection = some conn) : Lived host ids c conn := by
  have hall : ∀ conn, c.mConnection = some conn → Lived host ids c conn := by
    apply Lts.run_invariant
      (fun c => ∀ conn, c.mConnection = some conn → Lived host ids c conn)
      ?_ ?_ hrun
    · intro c a c' h hs conn hconn'
      obtain ⟨hfate, hmove⟩ := move_of_step hs
      exact lived_move h hfate hmove hconn'
    · intro conn hnone
      cases hnone
  exact hall conn hconn

-- ============================================================= the guard

/-- No step assigns `m_CurrentStatus`. -/
theorem status_move (h : Move host ids c a c') :
    c'.mCurrentStatus = c.mCurrentStatus := by
  cases h <;> rfl

/-- So it keeps the value of its initialiser. -/
theorem status_run {acts : List Action}
    (hrun : Lts.run (step host ids disconnectID)
      (create gameName gameVersion) acts = some c) :
    c.mCurrentStatus = .disconnected := by
  apply Lts.run_invariant (fun c => c.mCurrentStatus = .disconnected)
    ?_ rfl hrun
  intro c a c' hc hs
  exact (status_move (move_of_step hs).2).trans hc

variable (host ids) in
/-- What the test at the head of `Connect()` is for: the call throws,
and leaves the connection, with its operations, and the thread alone. -/
def Guarded (env : ConnectEnv) (c : PacketClient) : Prop :=
  ∃ c', (connect host ids env).run c = .error alreadyConnected c'
    ∧ c'.mConnection = c.mConnection
    ∧ c'.mThreadContext = c.mThreadContext

/-- In no state of any run does a call of `Connect()` throw "Already
connected", connected, connecting or neither. -/
theorem connect_not_guarded {acts : List Action}
    (hrun : Lts.run (step host ids disconnectID)
      (create gameName gameVersion) acts = some c) (env : ConnectEnv) :
    ¬ Guarded host ids env c := by
  rintro ⟨c', hthrown, -, -⟩
  have hcases := @connect_cases host ids c env (status_run hrun)
  rw [hthrown] at hcases
  cases hcases

/-- A call of `Connect()` that nothing goes wrong in. -/
def goodEnv : ConnectEnv :=
  { resolves := true, endpointsEmpty := false, locale := {}, now := 0
    incoming := [], threadStarts := true }

/-- The client the runs below start from. -/
def newClient : PacketClient := create ProtocolGameName.zero 0

theorem connect_not_guarded_connecting :
    ∃ c, Lts.run (step .little ⟨0xF0, 0xF1⟩ 0xFF) newClient
        [.connect goodEnv] = some c
      ∧ c.isConnecting = true
      ∧ ¬ Guarded .little ⟨0xF0, 0xF1⟩ goodEnv c := by
  obtain ⟨c, hrun, hbusy⟩ : ∃ c, Lts.run (step .little ⟨0xF0, 0xF1⟩ 0xFF)
      newClient [.connect goodEnv] = some c ∧ c.isConnecting = true :=
    ⟨_, rfl, rfl⟩
  exact ⟨c, hrun, hbusy, connect_not_guarded hrun goodEnv⟩

/-- A second call while the first is still connecting destroys its
connection, and the program with it. -/
theorem second_connect_terminates :
    ∃ c c', Lts.run (step .little ⟨0xF0, 0xF1⟩ 0xFF) newClient
        [.connect goodEnv] = some c
      ∧ c.isConnecting = true
      ∧ (connect .little ⟨0xF0, 0xF1⟩ goodEnv).run c
        = .error (.terminated .joinableAssigned) c'
      ∧ c.mConnection.map (·.self) = some 0
      ∧ c'.mConnection.map (·.self) = some 1 :=
  ⟨_, _, rfl, rfl, rfl, rfl, rfl⟩

-- ============================================================= the handle

/-- The connection is connected or connecting. -/
def isLive (c : PacketClient) : Bool :=
  c.mConnection.any fun conn => conn.isOpen || conn.mIsConnecting

theorem isLive_eq (c : PacketClient) :
    c.isLive = (c.isConnected || c.isConnecting) := by
  unfold isLive isConnected isConnecting
  cases c.mConnection with
  | none => rfl
  | some conn =>
      show (conn.isOpen || conn.mIsConnecting)
        = (conn.isOpen && !conn.mIsConnecting || conn.mIsConnecting)
      cases conn.isOpen <;> cases conn.mIsConnecting <;> rfl

/-- The call under way joins the thread, or ends the program over an
exception. -/
def User.joins : User → Bool
  | .idle => false
  | .sending call => call = .destructor
  | .posting call => call.isSome
  | .waiting _ => true

/-- The event ends the connection: a close, or a connect that failed. -/
def drops (conn : Connection) : Connection.Action → Bool
  | .connectDone ok leftOpen => !ok && !leftOpen
  | a => Connection.closes conn a

/-- `Connect()` is called only while the client is neither connected nor
connecting. -/
def ConnectsFree (c : PacketClient) : Action → Prop
  | .connect _ => c.isConnected = false ∧ c.isConnecting = false
  | _ => True

/-- The connection ends only under a `Disconnect()` that has got past its
tests, and the client is not destroyed while its thread connects. -/
def Orderly (c : PacketClient) : Action → Prop
  | .io a => c.user.joins = true
      ∨ c.mConnection.all (fun conn => !drops conn a) = true
  | .disconnectTest .destructor =>
      c.isConnecting = true → c.mThreadContext.joinable = false
  | _ => True

/-- The handle has been misused by nobody, and a thread that has not been
joined serves a connection or is about to be. -/
structure Attached (c : PacketClient) : Prop where
  safe : c.fate ≠ some .joinableAssigned ∧ c.fate ≠ some .joinableDestroyed
  attached : c.mThreadContext.joinable = true →
    c.fate = none → c.user.joins = true ∨ c.isLive = true

/-- A thread is joined once the client is idle and not live. -/
theorem Attached.joined (h : Attached c) (hfate : c.fate = none)
    (hu : c.user = .idle) (hlive : c.isLive = false) :
    c.mThreadContext.joinable = false := by
  by_contra hj
  rcases h.attached (by simpa using hj) hfate with hw | hl
  · rw [hu] at hw
    cases hw
  · rw [hlive] at hl
    cases hl

/-- A step that leaves handle and fate alone. -/
theorem Attached.of_eq (h : Attached c)
    (hj : c'.mThreadContext = c.mThreadContext) (hfate : c'.fate = c.fate)
    (hkeeps : c.user.joins = true ∨ c.isLive = true →
      c'.user.joins = true ∨ c'.isLive = true) : Attached c' := by
  refine ⟨hfate ▸ h.safe, fun hjoin hnone => ?_⟩
  rw [hj] at hjoin
  rw [hfate] at hnone
  exact hkeeps (h.attached hjoin hnone)

/-- A handle that is not joinable. -/
theorem Attached.of_joined (hj : c.mThreadContext.joinable = false)
    (hsafe : c.fate ≠ some .joinableAssigned
      ∧ c.fate ≠ some .joinableDestroyed) : Attached c := by
  refine ⟨hsafe, fun hjoin => ?_⟩
  rw [hj] at hjoin
  cases hjoin

/-- Any other end. -/
theorem Attached.of_fate {fate : Fate} (hfate : c.fate = some fate)
    (hsafe : fate ≠ .joinableAssigned ∧ fate ≠ .joinableDestroyed) :
    Attached c := by
  refine ⟨?_, ?_⟩
  · rw [hfate]
    simpa using hsafe
  · intro _ hnone
    rw [hfate] at hnone
    cases hnone

theorem isLive_some {conn : Connection} (hconn : c.mConnection = some conn) :
    c.isLive = (conn.isOpen || conn.mIsConnecting) := by
  rw [isLive, hconn]
  rfl

/-- An event that does not end the connection leaves it live. -/
theorem live_of_not_drops {a : Connection.Action} {conn conn' : Connection}
    (hstep : Connection.step host ids a conn = some conn')
    (hdrops : drops conn a = false)
    (hlive : (conn.isOpen || conn.mIsConnecting) = true) :
    (conn'.isOpen || conn'.mIsConnecting) = true := by
  have hsteady (ha : Connection.isConnect a = false)
      (hclose : Connection.closes conn a = false) :
      (conn'.isOpen || conn'.mIsConnecting) = true := by
    have hline := Connection.steady_step ha hclose hstep
    rw [Connection.line, Connection.line, Prod.mk.injEq] at hline
    rw [hline.1, hline.2]
    exact hlive
  cases a with
  | connectDone ok leftOpen =>
      rw [Connection.connectDone_isOpen hstep]
      cases ok with
      | true => rfl
      | false =>
          cases leftOpen with
          | true => rfl
          | false => cases hdrops
  | send packet => exact hsteady rfl hdrops
  | sendBegin packet => exact hsteady rfl hdrops
  | sendEnd i => exact hsteady rfl hdrops
  | disconnect => exact hsteady rfl hdrops
  | posted => exact hsteady rfl hdrops
  | writeDone op ok now => exact hsteady rfl hdrops
  | readDone op ok now => exact hsteady rfl hdrops

/-- What `Send` does up to its post leaves the connection live. -/
theorem live_of_readFrame {conn conn' : Connection}
    (hrel : Connection.readFrame.rel conn conn')
    (hlive : (conn.isOpen || conn.mIsConnecting) = true) :
    (conn'.isOpen || conn'.mIsConnecting) = true := by
  obtain ⟨hside, hopen, -⟩ := hrel
  simp only [Connection.readSide, Prod.mk.injEq] at hside
  rw [hopen, hside.2.2.2.2.2.2.1]
  exact hlive

/-- The connection took a step that leaves it live, or the program is
over. -/
theorem Attached.stepped (h : Attached c) {conn conn' : Connection}
    (hconn : c.mConnection = some conn)
    (hlive : c.user.joins = true
      ∨ ((conn.isOpen || conn.mIsConnecting) = true →
        (conn'.isOpen || conn'.mIsConnecting) = true)) :
    Attached (stepped c conn conn') := by
  cases hesc : conn'.escaped with
  | some e =>
      have hfate : (PacketClient.stepped c conn conn').fate
          = some .handlerThrew := by
        simp [PacketClient.stepped, hesc]
      exact .of_fate hfate (by simp)
  | none =>
      refine h.of_eq rfl (by simp [PacketClient.stepped, hesc]) ?_
      rintro (hj | hl)
      · exact .inl hj
      · rcases hlive with hj | hkeep
        · exact .inl hj
        · rw [isLive_some hconn] at hl
          exact .inr (hkeep hl)

/-- The destructor finds the thread joined, or joins it. -/
theorem Attached.finished {call : DisconnectCall} (h : Attached c)
    (hj : call = .destructor → c.mThreadContext.joinable = false)
    (hu : c.user.joins = true → c.mThreadContext.joinable = false) :
    Attached (finished call c) := by
  by_cases hcall : call = .destructor
  · refine .of_joined (hj hcall) ?_
    simp [PacketClient.finished, hcall, hj hcall]
  · refine ⟨?_, ?_⟩
    · simp only [PacketClient.finished, if_neg hcall]
      exact h.safe
    · intro hjoin hnone
      simp only [PacketClient.finished, if_neg hcall] at hjoin hnone
      rcases h.attached hjoin hnone with hw | hl
      · rw [hu hw] at hjoin
        cases hjoin
      · exact .inr hl

theorem attached_move (h : Attached c) (hfate : c.fate = none)
    (hfree : ConnectsFree c a) (hord : Orderly c a)
    (hmove : Move host ids c a c') : Attached c' := by
  cases hmove with
  | refused hstatus => exact h
  | unresolved hu => exact h.of_eq rfl rfl id
  | threadless hu =>
      refine .of_joined ?_ h.safe
      apply h.joined hfate hu
      rw [isLive_eq, hfree.1, hfree.2]
      rfl
  | terminates hu hj =>
      have hlive : c.isLive = false := by
        rw [isLive_eq, hfree.1, hfree.2]
        rfl
      rw [h.joined hfate hu hlive] at hj
      cases hj
  | connects hu hj => exact ⟨h.safe, fun _ _ => .inr rfl⟩
  | @test call hu hc =>
      refine h.of_eq rfl rfl ?_
      rintro -
      refine .inr ?_
      show c.isLive = true
      rw [isLive_eq, hc]
      rfl
  | @early call hu hc =>
      refine h.finished ?_ ?_
      · rintro rfl
        by_cases hconnecting : c.isConnecting = true
        · exact hord hconnecting
        · apply h.joined hfate hu
          rw [isLive_eq, hc, Bool.false_or]
          simpa using hconnecting
      · rw [hu]
        exact nofun
  | sends hu hconn hsend => exact ⟨h.safe, fun _ _ => .inl rfl⟩
  | @throws call hu =>
      by_cases hcall : call = .destructor
      · exact .of_fate (if_pos hcall) (by simp)
      · refine h.of_eq rfl (if_neg hcall) ?_
        rintro (hj | hl)
        · rw [hu] at hj
          exact absurd (by simpa [User.joins] using hj) hcall
        · exact .inr hl
  | @ends call hu =>
      have hended : Attached (ended call c) := .of_joined rfl h.safe
      exact hended.finished (fun _ => rfl) fun _ => rfl
  | @userSends packet conn conn' hu hconn hsend =>
      have hrel := (Connection.sendBegin_keeps_reading packet).of_ok hsend
      refine h.of_eq rfl rfl ?_
      rintro (hj | hl)
      · rw [hu] at hj
        cases hj
      · rw [isLive_some hconn] at hl
        exact .inr (live_of_readFrame hrel hl)
  | userThrows hu => exact h
  | @posts call conn conn' hu hconn hstep =>
      cases call with
      | none =>
          have hnone := h.stepped hconn
            (.inr (live_of_not_drops hstep rfl))
          refine hnone.of_eq rfl rfl ?_
          rintro (hj | hl)
          · have hu' : (PacketClient.stepped c conn conn').user = .posting none := hu
            rw [hu'] at hj
            cases hj
          · exact .inr hl
      | some call =>
          have hsome : Attached (PacketClient.stepped c conn conn') :=
            h.stepped hconn (.inl (by rw [hu]; rfl))
          exact hsome.of_eq rfl rfl fun _ => .inl rfl
  | pops hu hne => exact h.of_eq rfl rfl id
  | @handles a conn conn' ha hruns hconn hstep =>
      refine h.stepped hconn ?_
      rcases hord with hj | hall
      · exact .inl hj
      · rw [hconn] at hall
        exact .inr (live_of_not_drops hstep (by simpa using hall))
  | returns hrunning hwork =>
      refine ⟨h.safe, fun _ hnone => ?_⟩
      exact h.attached (by rw [hrunning]; rfl) hnone
  | dangles hd hruns => exact .of_fate rfl (by simp)

/-- In every run with each `Connect()` called only while the client is
neither connected nor connecting, and otherwise orderly, the handle is
neither assigned nor destroyed while it is joinable. -/
theorem joined_before_reuse {acts : List Action}
    (hfree : Lts.Meets (step host ids disconnectID) ConnectsFree
      (create gameName gameVersion) acts)
    (hord : Lts.Meets (step host ids disconnectID) Orderly
      (create gameName gameVersion) acts)
    (hrun : Lts.run (step host ids disconnectID)
      (create gameName gameVersion) acts = some c) :
    c.fate ≠ some .joinableAssigned ∧ c.fate ≠ some .joinableDestroyed := by
  have hinit : Attached (create gameName gameVersion) :=
    .of_joined rfl ⟨nofun, nofun⟩
  have hlast : Attached c := by
    apply Lts.run_invariant_of_meets Attached ?_ hinit (hfree.and hord) hrun
    rintro c a c' h ⟨hfree, hord⟩ hs
    obtain ⟨hfate, hmove⟩ := move_of_step hs
    exact attached_move h hfate hfree hord hmove
  exact hlast.safe

instance (c : PacketClient) (a : Action) : Decidable (ConnectsFree c a) := by
  unfold ConnectsFree
  split <;> infer_instance

instance (c : PacketClient) (a : Action) : Decidable (Orderly c a) := by
  unfold Orderly
  split <;> infer_instance

/-- One session, ended by `Disconnect()`, and the destructor. -/
def session : List Action :=
  [.connect goodEnv, .io (.connectDone true true),
    .disconnectTest .disconnect, .disconnectSend, .post, .disconnectEnd]

theorem joined_before_reuse_session :
    ∃ c, Lts.run (step .little ⟨0xF0, 0xF1⟩ 0xFF) newClient
        (session ++ [.disconnectTest .destructor]) = some c
      ∧ c.fate ≠ some .joinableAssigned
      ∧ c.fate ≠ some .joinableDestroyed := by
  have hfree : Lts.Meets (step .little ⟨0xF0, 0xF1⟩ 0xFF) ConnectsFree
      newClient (session ++ [.disconnectTest .destructor]) := by
    decide +kernel
  have hord : Lts.Meets (step .little ⟨0xF0, 0xF1⟩ 0xFF) Orderly
      newClient (session ++ [.disconnectTest .destructor]) := by
    decide +kernel
  exact ⟨_, rfl, joined_before_reuse hfree hord rfl⟩

/-- A server that closes the connection leaves the thread to be destroyed
unjoined: the read of the next header fails and closes the socket, and
the destructor's `Disconnect()` returns at its test. -/
theorem closed_connection_terminates :
    ∃ c, Lts.Meets (step .little ⟨0xF0, 0xF1⟩ 0xFF) ConnectsFree newClient
        [.connect goodEnv, .io (.connectDone true true),
          .io (.readDone .header false 0), .disconnectTest .destructor]
      ∧ Lts.run (step .little ⟨0xF0, 0xF1⟩ 0xFF) newClient
        [.connect goodEnv, .io (.connectDone true true),
          .io (.readDone .header false 0), .disconnectTest .destructor]
        = some c
      ∧ c.fate = some .joinableDestroyed :=
  ⟨_, by decide +kernel, rfl, rfl⟩

/-- From an idle client whose thread outlived its connection both ways
out end in `std::terminate()`. -/
theorem misused_of_joinable (hfate : c.fate = none) (hu : c.user = .idle)
    (hlive : c.isLive = false) (hj : c.mThreadContext.joinable = true) :
    (∃ c', step host ids disconnectID (.disconnectTest .destructor) c
        = some c' ∧ c'.fate = some .joinableDestroyed)
      ∧ (c.mCurrentStatus = .disconnected →
        ∃ c', step host ids disconnectID (.connect goodEnv) c = some c'
          ∧ c'.fate = some .joinableAssigned) := by
  have hstep (a : Action) : step host ids disconnectID a c
      = event host ids disconnectID a c := by
    unfold step
    rw [if_neg (by simp [hfate])]
  rw [isLive_eq, Bool.or_eq_false_iff] at hlive
  refine ⟨?_, fun hstatus => ?_⟩
  · refine ⟨finished .destructor c, ?_, ?_⟩
    · rw [hstep, event, if_pos hu, userCall_disconnectTest,
        if_neg (by simp [hlive.1])]
    · simp [finished, hj]
  · refine ⟨userCall (connect host ids goodEnv) c, ?_, ?_⟩
    · rw [hstep, event, if_pos hu]
    · have htry : (tryConnect host ids goodEnv).run c
          = .error (.terminated .joinableAssigned) (connecting host ids goodEnv c) :=
        (run_tryConnect rfl rfl).trans (run_startThread_joinable hj)
      rw [userCall, connect_of_error hstatus htry]
      rfl

-- ============================================================ the context

/-- No step restarts the context. -/
theorem stopped_move (h : Move host ids c a c')
    (hs : c.mIoContextStopped = true) : c'.mIoContextStopped = true := by
  cases h with
  | returns hrunning hwork => rfl
  | ends hu => rfl
  | _ => exact hs

theorem stopped_run {acts : List Action} (hs : c.mIoContextStopped = true)
    (hrun : Lts.run (step host ids disconnectID) c acts = some c') :
    c'.mIoContextStopped = true := by
  apply Lts.run_invariant (fun c => c.mIoContextStopped = true) ?_ hs hrun
  intro c a c' hc hs
  exact stopped_move (move_of_step hs).2 hc

/-- A run that has ended a session has stopped the context. -/
theorem stopped_of_mem {acts : List Action} (hmem : .disconnectEnd ∈ acts)
    (hrun : Lts.run (step host ids disconnectID) c acts = some c') :
    c'.mIoContextStopped = true := by
  obtain ⟨before, rest, rfl⟩ := List.append_of_mem hmem
  obtain ⟨c₁, -, hrest⟩ := Lts.run_append_eq_some.mp hrun
  obtain ⟨c₂, hend, hrest⟩ := Lts.run_cons_eq_some.mp hrest
  refine stopped_run ?_ hrest
  obtain ⟨-, hmove⟩ := move_of_step hend
  cases hmove
  rfl

/-- Before that, only a thread that has not been joined can have stopped
it. -/
theorem joinable_move (h : Move host ids c a c') (ha : a ≠ .disconnectEnd)
    (hs : c.mIoContextStopped = true → c.mThreadContext.joinable = true) :
    c'.mIoContextStopped = true → c'.mThreadContext.joinable = true := by
  cases h with
  | connects hu hj => exact fun _ => rfl
  | returns hrunning hwork => exact fun _ => rfl
  | ends hu => exact absurd rfl ha
  | _ => exact hs

theorem joinable_run {acts : List Action} (hmem : .disconnectEnd ∉ acts)
    (hrun : Lts.run (step host ids disconnectID)
      (create gameName gameVersion) acts = some c) :
    c.mIoContextStopped = true → c.mThreadContext.joinable = true := by
  have hmeets : Lts.Meets (step host ids disconnectID)
      (fun _ a => True ∧ a ≠ .disconnectEnd)
      (create gameName gameVersion) acts :=
    (Lts.Meets.of_forall (fun _ _ => trivial) _ acts).and_forall
      fun a ha he => hmem (he ▸ ha)
  apply Lts.run_invariant_of_meets
    (fun c => c.mIoContextStopped = true → c.mThreadContext.joinable = true)
    ?_ (fun hs => absurd hs Bool.false_ne_true) hmeets hrun
  rintro c a c' hc ⟨-, ha⟩ hs
  exact joinable_move (move_of_step hs).2 ha hc

/-- `Connect()` has returned true: the context its thread runs is not
stopped if and only if no `Disconnect()` or `DisconnectWithError()` had
come to its end before. -/
theorem connect_runnable_iff {acts : List Action}
    (hrun : Lts.run (step host ids disconnectID)
      (create gameName gameVersion) acts = some c)
    (hconnect : (connect host ids env).run c = .ok true c') :
    c'.mIoContextStopped = false ↔ .disconnectEnd ∉ acts := by
  have hcases := @connect_cases host ids c env (status_run hrun)
  rw [hconnect] at hcases
  cases hcases with
  | connects hj =>
      show c.mIoContextStopped = false ↔ _
      constructor
      · intro hs hmem
        rw [stopped_of_mem hmem hrun] at hs
        cases hs
      · intro hmem
        by_contra hs
        have hjoin := joinable_run hmem hrun (by simpa using hs)
        rw [hj] at hjoin
        cases hjoin

/-- After a session that has been disconnected, and after a `Connect()`
that found nobody. -/
theorem connect_runnable_again :
    (∃ c c', Lts.run (step .little ⟨0xF0, 0xF1⟩ 0xFF) newClient session
          = some c
        ∧ (connect .little ⟨0xF0, 0xF1⟩ goodEnv).run c = .ok true c'
        ∧ c'.mIoContextStopped = true)
      ∧ ∃ c c', Lts.run (step .little ⟨0xF0, 0xF1⟩ 0xFF) newClient
          [.connect { goodEnv with resolves := false }] = some c
        ∧ c.mLastDisconnectInfo.message = "Failed to connect"
        ∧ (connect .little ⟨0xF0, 0xF1⟩ goodEnv).run c = .ok true c'
        ∧ c'.mIoContextStopped = false := by
  refine ⟨?_, ?_⟩
  · obtain ⟨c, c', hrun, hconnect⟩ :
        ∃ c c', Lts.run (step .little ⟨0xF0, 0xF1⟩ 0xFF) newClient session
            = some c
          ∧ (connect .little ⟨0xF0, 0xF1⟩ goodEnv).run c = .ok true c' :=
      ⟨_, _, rfl, rfl⟩
    refine ⟨c, c', hrun, hconnect, ?_⟩
    have hiff := connect_runnable_iff hrun hconnect
    simpa [session] using hiff
  · obtain ⟨c, c', hrun, hmessage, hconnect⟩ :
        ∃ c c', Lts.run (step .little ⟨0xF0, 0xF1⟩ 0xFF) newClient
            [.connect { goodEnv with resolves := false }] = some c
          ∧ c.mLastDisconnectInfo.message = "Failed to connect"
          ∧ (connect .little ⟨0xF0, 0xF1⟩ goodEnv).run c = .ok true c' :=
      ⟨_, _, rfl, rfl, rfl⟩
    refine ⟨c, c', hrun, hmessage, hconnect, ?_⟩
    exact (connect_runnable_iff hrun hconnect).mpr (by simp)

/-- The second session's thread returns at once, and its connect never
completes. -/
theorem second_session_stopped :
    ∃ c c', Lts.run (step .little ⟨0xF0, 0xF1⟩ 0xFF) newClient session
        = some c
      ∧ (connect .little ⟨0xF0, 0xF1⟩ goodEnv).run c = .ok true c'
      ∧ c'.mIoContextStopped = true
      ∧ ∀ a, step .little ⟨0xF0, 0xF1⟩ 0xFF (.io a) c' = none := by
  refine ⟨_, _, rfl, rfl, rfl, fun a => ?_⟩
  show (if a.isHandler && false then _ else none) = none
  rw [Bool.and_false]
  rfl

end PacketClient

end AWEnginePacket
