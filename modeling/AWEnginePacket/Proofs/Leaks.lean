/-
Which session a popped message is from.

`ReceiveQueue` is one queue for all sessions. Its documentation says that
`Connect()` clears it; nothing does. So what one session has left unread
is popped in the next (`pending_popped`).

A client is watched together with the session of the last `Connect()`
that returned true. As long as every such `Connect()` finds the queue
empty, and none without a thread of its own gives a connection to the
thread of the session before, whatever is popped is of that session
(`sessions_separate`).
-/
import AWEnginePacket.Proofs.Client

namespace AWEnginePacket

open Endian (ByteOrder)
open Effect

-- ============================================================= ownership

namespace Connection

variable {host : ByteOrder} {ids : PacketIDs} {c c' : Connection}

/-- The connection stays the object it is. -/
def selfFrame : Frame Connection where
  rel c c' := c'.self = c.self
  refl _ := rfl
  trans h h' := h'.trans h

theorem keeps_self_of_reading {m : ConnM PUnit} (hm : Keeps readFrame m) :
    Keeps selfFrame m := by
  apply hm.mono
  rintro c c' ⟨hside, -⟩
  simp only [readSide, Prod.mk.injEq] at hside
  exact hside.2.2.2.2.2.1

theorem addToIncomingMessageQueue_keeps_self (now : TimePoint) :
    Keeps selfFrame (addToIncomingMessageQueue host ids now) := by
  refine addToIncomingMessageQueue_keeps_of ?_ ?_ ?_ ?_ now
  · intro c t n
    rfl
  · intro c msgs
    rfl
  · intro c
    rfl
  · intro msg now
    exact keeps_self_of_reading (keepAliveReceived_keeps_reading msg now)

theorem readCompleted_keeps_self (op : ReadOp) (ok : Bool)
    (now : TimePoint) :
    Keeps selfFrame (readCompleted host ids op ok now) := by
  have hadd : Keeps selfFrame (addToIncomingMessageQueue host ids now) :=
    addToIncomingMessageQueue_keeps_self now
  have hclose : Keeps selfFrame close := fun _ => rfl
  have hbody : Keeps selfFrame readBody := fun _ => rfl
  cases op with
  | header =>
      refine .bind (keeps_modify fun _ => rfl) fun _ => .ite ?_ hclose
      exact keeps_get.bind fun _ => .ite hadd hbody
  | body n =>
      refine .ite ?_ hclose
      exact keeps_get.bind fun _ => .ite hclose hadd

theorem connectCompleted_keeps_self (ok : Bool) :
    Keeps selfFrame (connectCompleted host ids ok) := by
  have hread : Keeps selfFrame readHeader := fun _ => rfl
  unfold connectCompleted
  refine .bind (keeps_modify fun _ => rfl) fun _ => .ite ?_ (keeps_pure _)
  refine keeps_get.bind fun c => ?_
  split
  case h_1 packet hpacket =>
    have hsend : Keeps selfFrame (send host ids packet) :=
      keeps_self_of_reading (send_keeps_reading packet)
    exact hsend.bind fun _ => hread
  case h_2 => exact hread

theorem connectToServer_keeps_self (initPacket : Option IPacket) :
    Keeps selfFrame (connectToServer initPacket) := by
  unfold connectToServer
  refine keeps_get.bind fun _ => .check (.bind ?_ fun _ => ?_)
  · exact keeps_modify fun _ => rfl
  · exact keeps_modify fun _ => rfl

theorem runHandler_self {kind : HandlerKind} {m : ConnM PUnit}
    (hm : Keeps selfFrame m) (c : Connection) :
    (runHandler kind m c).self = c.self := by
  rcases runHandler_cases kind m c with ⟨h, -⟩ | ⟨e, -, h⟩
  · rw [h]
    exact hm c
  · rw [h]
    exact hm c

theorem remembered_self (c : Connection) (info : PacketSendInfo) :
    (remembered host ids c info).self = c.self := by
  unfold remembered
  split
  · rfl
  · rfl

/-- No event makes a connection another. -/
theorem self_step {a : Action} (h : step host ids a c = some c') :
    c'.self = c.self := by
  cases a with
  | send packet =>
      obtain ⟨call, -, -, -, rfl⟩ := of_step_send h
      exact remembered_self c call.info
  | sendBegin packet =>
      obtain ⟨call, -, -, -, rfl⟩ := of_step_sendBegin h
      exact remembered_self c call.info
  | sendEnd i =>
      obtain ⟨call, -, rfl⟩ := of_step_sendEnd h
      rfl
  | disconnect =>
      rcases of_step_disconnect h with rfl | rfl
      · rfl
      · rfl
  | posted =>
      obtain ⟨handler, rest, -, rfl⟩ := of_step_posted h
      rw [of_apart self (fun _ => rfl)
        (runHandler_apart (runPosted_keeps handler) _).1]
  | writeDone op ok now =>
      obtain ⟨-, rfl⟩ := of_step_writeDone h
      rw [of_apart self (fun _ => rfl)
        (runHandler_apart (writeCompleted_keeps op ok now) _).1]
  | readDone op ok now =>
      obtain ⟨-, hc'⟩ := of_step_readDone h
      cases ok with
      | true =>
          rw [if_pos rfl] at hc'
          obtain ⟨c₁, htransfer, rfl⟩ := hc'
          obtain ⟨-, -, -, hself⟩ := of_transfer htransfer
          rw [runHandler_self (readCompleted_keeps_self op true now), hself]
      | false =>
          rw [if_neg Bool.false_ne_true] at hc'
          rw [hc', runHandler_self (readCompleted_keeps_self op false now)]
  | connectDone ok leftOpen =>
      obtain ⟨-, rfl⟩ := of_step_connectDone h
      exact runHandler_self (connectCompleted_keeps_self ok) _

end Connection

-- =============================================================== sessions

namespace PacketClient

variable {host : ByteOrder} {ids : PacketIDs} {disconnectID : UInt8}
  {c c' : PacketClient} {a : Action} {env : ConnectEnv}
  {gameName : ProtocolGameName} {gameVersion : UInt32}

variable (host ids) in
/-- `Connect()` returns true. -/
def accepts (env : ConnectEnv) (c : PacketClient) : Bool :=
  match (connect host ids env).run c with
  | .ok true _ => true
  | _ => false

/-- The connection of a `Connect()` is the next session's. -/
theorem connecting_self {conn : Connection}
    (h : (connecting host ids env c).mConnection = some conn) :
    conn.self = c.sessions := by
  injection h with h
  rw [← h]
  exact Connection.connectToServer_keeps_self _ _

/-- A client, and the session of the last `Connect()` that returned
true. -/
structure Watched where
  client : PacketClient
  last : Option Nat := none

variable (host ids disconnectID) in
/-- One step of a watched client. -/
def watch (a : Action) (w : Watched) : Option Watched :=
  (step host ids disconnectID a w.client).map fun c' =>
    { client := c'
      last := match a with
        | .connect env =>
            if accepts host ids env w.client then c'.mConnection.map (·.self)
            else w.last
        | _ => w.last }

/-- A client before its first step. -/
def Watched.start (gameName : ProtocolGameName) (gameVersion : UInt32) :
    Watched :=
  { client := create gameName gameVersion }

/-- The message that is popped was received by the connection of the last
`Connect()` that returned true, if there was one. -/
def PopsOwn (w : Watched) : Action → Prop
  | .popFront => ∀ s ∈ w.last, ∀ m ∈ w.client.receiveQueue.head?, m.1 = s
  | _ => True

instance (w : Watched) : (a : Action) → Decidable (PopsOwn w a)
  | .popFront => inferInstanceAs (Decidable
      (∀ s ∈ w.last, ∀ m ∈ w.client.receiveQueue.head?, m.1 = s))
  | .connect _ => isTrue trivial
  | .disconnectTest _ => isTrue trivial
  | .disconnectSend => isTrue trivial
  | .disconnectEnd => isTrue trivial
  | .send _ => isTrue trivial
  | .post => isTrue trivial
  | .io _ => isTrue trivial
  | .runReturns => isTrue trivial
  | .danglingHandler => isTrue trivial

/-- A `Connect()` that makes a connection finds the queue empty if its
thread starts, and nobody to run the connection if not. -/
def Drained (w : Watched) : Action → Prop
  | .connect env => env.found = true →
      if env.threadStarts then w.client.receiveQueue = []
      else w.client.mThreadContext ≠ .running
  | _ => True

/-- What is queued, and what is still to come, is of the last session. -/
structure Own (w : Watched) : Prop where
  status : w.client.mCurrentStatus = .disconnected
  queued : ∀ m ∈ w.client.receiveQueue, w.last = some m.1
  coming : w.client.fate = none → w.client.mThreadContext = .running →
    ∀ conn, w.client.mConnection = some conn → w.last = some conn.self

/-- A step that leaves the queue, the thread and whose connection it is
alone. -/
theorem Own.of_eq {w w' : Watched} (h : Own w)
    (hfate : w.client.fate = none)
    (hstatus : w'.client.mCurrentStatus = w.client.mCurrentStatus)
    (hqueue : w'.client.receiveQueue = w.client.receiveQueue)
    (hlast : w'.last = w.last)
    (hthread : w'.client.mThreadContext = .running →
      w.client.mThreadContext = .running
        ∧ w'.client.mConnection.map (·.self)
          = w.client.mConnection.map (·.self)) : Own w' where
  status := hstatus.trans h.status
  queued := by
    rw [hqueue, hlast]
    exact h.queued
  coming := by
    intro _ hrunning conn' hconn'
    obtain ⟨hrunning, hself⟩ := hthread hrunning
    rw [hconn', Option.map_some] at hself
    obtain ⟨conn, hconn, heq⟩ := Option.map_eq_some_iff.mp hself.symm
    rw [hlast, h.coming hfate hrunning conn hconn, heq]

/-- `Connect()`, in a client whose guard lets it pass. -/
theorem own_connect {w : Watched} (h : Own w) (hfate : w.client.fate = none)
    (hdrained : Drained w (.connect env)) :
    Own ⟨userCall (connect host ids env) w.client,
      if accepts host ids env w.client then
        (userCall (connect host ids env) w.client).mConnection.map (·.self)
      else w.last⟩ := by
  rw [accepts, userCall]
  cases hfound : env.found with
  | false =>
      rw [connect_unfound h.status hfound]
      exact h.of_eq hfate rfl rfl rfl fun hrunning => ⟨hrunning, rfl⟩
  | true =>
      have hcond := hdrained hfound
      cases hthread : env.threadStarts with
      | false =>
          rw [hthread, if_neg Bool.false_ne_true] at hcond
          rw [connect_threadless h.status hfound hthread]
          exact ⟨h.status, h.queued, fun _ hrunning => absurd hrunning hcond⟩
      | true =>
          rw [hthread, if_pos rfl] at hcond
          cases hj : w.client.mThreadContext.joinable with
          | true =>
              rw [connect_joinable h.status hfound hthread hj]
              refine ⟨h.status, h.queued, fun hnone => ?_⟩
              cases hnone
          | false =>
              rw [connect_starts h.status hfound hthread hj]
              refine ⟨h.status, ?_, ?_⟩
              · intro m hm
                have hm : m ∈ w.client.receiveQueue := hm
                rw [hcond] at hm
                cases hm
              · rintro - - conn hconn
                exact congrArg (Option.map (·.self)) hconn

/-- The connection took a step. Whatever it received is its own. -/
theorem Own.stepped {w : Watched} (h : Own w) (hfate : w.client.fate = none)
    {b : Connection.Action} {conn conn' : Connection} (user : User)
    (hconn : w.client.mConnection = some conn)
    (hstep : Connection.step host ids b conn = some conn')
    (hreceives : w.client.mThreadContext = .running
      ∨ conn'.mMessagesIn = conn.mMessagesIn) :
    Own ⟨{ stepped w.client conn conn' with user }, w.last⟩ where
  status := h.status
  queued := by
    intro m hm
    rcases List.mem_append.mp hm with hm | hm
    · exact h.queued m hm
    · obtain ⟨msg, hmsg, rfl⟩ := List.mem_map.mp hm
      rcases hreceives with hrunning | hsame
      · rw [h.coming hfate hrunning conn hconn, Connection.self_step hstep]
      · rw [hsame, List.drop_length] at hmsg
        cases hmsg
  coming := by
    rintro - hrunning conn₁ hconn₁
    injection hconn₁ with hconn₁
    rw [← hconn₁, Connection.self_step hstep]
    exact h.coming hfate hrunning conn hconn

/-- Neither half of a `Send` receives anything, nor changes whose
connection it is. -/
theorem Own.sendBegin {w : Watched} (h : Own w) (hfate : w.client.fate = none)
    {packet : IPacket} {conn conn' : Connection} (user : User)
    (hconn : w.client.mConnection = some conn)
    (hsend : (Connection.sendBegin host ids packet).run conn = .ok ⟨⟩ conn') :
    Own ⟨{ w.client with mConnection := some conn', user }, w.last⟩ := by
  have hself := (Connection.keeps_self_of_reading
    (Connection.sendBegin_keeps_reading packet)).of_ok hsend
  refine h.of_eq hfate rfl rfl rfl fun hrunning => ⟨hrunning, ?_⟩
  rw [hconn]
  exact congrArg some hself

/-- A call that returns, in a client that owns what is queued. -/
theorem Own.finished {w : Watched} {call : DisconnectCall} (h : Own w)
    (hfate : w.client.fate = none) :
    Own ⟨finished call w.client, w.last⟩ :=
  h.of_eq hfate rfl rfl rfl fun hrunning => ⟨hrunning, rfl⟩

/-- Every step but `Connect()`. -/
theorem own_move {w : Watched} (h : Own w) (hfate : w.client.fate = none)
    (ha : ∀ env, a ≠ .connect env) (hmove : Move host ids w.client a c') :
    Own ⟨c', w.last⟩ := by
  cases hmove with
  | refused _ => exact absurd rfl (ha _)
  | unresolved _ => exact absurd rfl (ha _)
  | threadless _ => exact absurd rfl (ha _)
  | terminates _ _ => exact absurd rfl (ha _)
  | connects _ _ => exact absurd rfl (ha _)
  | sends hu hconn hsend => exact h.sendBegin hfate _ hconn hsend
  | @userSends packet conn conn' hu hconn hsend =>
      exact h.sendBegin hfate _ hconn hsend
  | @ends call hu =>
      have hended : Own ⟨ended call w.client, w.last⟩ :=
        ⟨h.status, h.queued, fun _ => nofun⟩
      exact hended.finished hfate
  | posts hu hconn hstep =>
      refine h.stepped hfate _ hconn hstep (.inr ?_)
      obtain ⟨call, -, rfl⟩ := Connection.of_step_sendEnd hstep
      rfl
  | handles _ hruns hconn hstep =>
      refine h.stepped hfate _ hconn hstep (.inl ?_)
      rw [runs, Bool.and_eq_true, decide_eq_true_eq] at hruns
      exact hruns.1
  | pops hu hne =>
      refine ⟨h.status, fun m hm => ?_, h.coming⟩
      exact h.queued m (List.mem_of_mem_tail hm)
  | returns hrunning hwork =>
      refine h.of_eq hfate rfl rfl rfl fun hrunning => ?_
      cases hrunning
  | test hu hc =>
      exact h.of_eq hfate rfl rfl rfl fun hrunning => ⟨hrunning, rfl⟩
  | early hu hc => exact h.finished hfate
  | throws hu =>
      exact h.of_eq hfate rfl rfl rfl fun hrunning => ⟨hrunning, rfl⟩
  | userThrows hu => exact h
  | dangles hd hruns =>
      exact h.of_eq hfate rfl rfl rfl fun hrunning => ⟨hrunning, rfl⟩

/-- What a watched step is. -/
theorem of_watch {w w' : Watched} (hw : watch host ids disconnectID a w = some w') :
    w.client.fate = none ∧ Move host ids w.client a w'.client
      ∧ ((∃ env, a = .connect env
          ∧ w'.client = userCall (connect host ids env) w.client
          ∧ w'.last = if accepts host ids env w.client then
              w'.client.mConnection.map (·.self) else w.last)
        ∨ (∀ env, a ≠ .connect env) ∧ w'.last = w.last) := by
  obtain ⟨c', hs, rfl⟩ := Option.map_eq_some_iff.mp hw
  obtain ⟨hfate, hmove⟩ := move_of_step hs
  refine ⟨hfate, hmove, ?_⟩
  cases a with
  | connect env =>
      rw [step, if_neg (by simp [hfate])] at hs
      obtain ⟨-, rfl⟩ := Lts.of_guarded hs
      exact .inl ⟨env, rfl, rfl, rfl⟩
  | _ => exact .inr ⟨fun env => by simp, rfl⟩

theorem own_watch {w w' : Watched} (h : Own w) (hdrained : Drained w a)
    (hw : watch host ids disconnectID a w = some w') : Own w' := by
  obtain ⟨hfate, hmove, ⟨env, rfl, hclient, hlast⟩ | ⟨hne, hlast⟩⟩ :=
    of_watch hw
  · have hown := @own_connect host ids env w h hfate hdrained
    rw [← hclient, ← hlast] at hown
    exact hown
  · have hown := own_move h hfate hne hmove
    rw [← hlast] at hown
    exact hown

/-- In every run whose `Connect()`s find the queue empty, and leave no
connection to the thread of another session, a message popped after a
`Connect()` that returned true was received on its connection. -/
theorem sessions_separate {acts : List Action}
    (hdrained : Lts.Meets (watch host ids disconnectID) Drained
      (.start gameName gameVersion) acts) :
    Lts.Meets (watch host ids disconnectID) PopsOwn
      (.start gameName gameVersion) acts := by
  refine Lts.Meets.of_invariant Own ?_ ?_ ?_ hdrained
  · intro w a hown _
    cases a with
    | popFront =>
        intro s hs m hm
        have hqueued := hown.queued m (List.mem_of_head? hm)
        rw [hqueued] at hs
        exact Option.some.inj hs
    | _ => trivial
  · intro w a w' hown hd hw
    exact own_watch hown hd hw
  · exact ⟨rfl, fun m hm => absurd hm List.not_mem_nil, fun _ => nofun⟩

/-- A server that sends one message without a body. -/
def chattyEnv : ConnectEnv := { goodEnv with incoming := [5, 0, 0, 0] }

/-- A session that receives the message. -/
def chattySession : List Action :=
  [.connect chattyEnv, .io (.connectDone true true),
    .io (.readDone .header true 0)]

instance (w : Watched) : (a : Action) → Decidable (Drained w a)
  | .connect env => inferInstanceAs (Decidable (env.found = true →
      if env.threadStarts then w.client.receiveQueue = []
      else w.client.mThreadContext ≠ .running))
  | .disconnectTest _ => isTrue trivial
  | .disconnectSend => isTrue trivial
  | .disconnectEnd => isTrue trivial
  | .send _ => isTrue trivial
  | .post => isTrue trivial
  | .popFront => isTrue trivial
  | .io _ => isTrue trivial
  | .runReturns => isTrue trivial
  | .danglingHandler => isTrue trivial

/-- The message is popped in its own session. -/
theorem sessions_separate_chatty :
    Lts.Meets (watch .little ⟨0xF0, 0xF1⟩ 0xFF) PopsOwn
      (.start ProtocolGameName.zero 0) (chattySession ++ [.popFront]) :=
  sessions_separate (by decide +kernel)

/-- The message of the first session is popped in the second. -/
theorem message_outlives_session :
    ∃ w, Lts.run (watch .little ⟨0xF0, 0xF1⟩ 0xFF)
        (.start ProtocolGameName.zero 0)
        (chattySession ++ [.disconnectTest .disconnect, .disconnectSend,
          .post, .disconnectEnd, .connect goodEnv]) = some w
      ∧ w.last = some 1
      ∧ w.client.receiveQueue.map (·.1) = [0]
      ∧ ¬ Lts.Meets (watch .little ⟨0xF0, 0xF1⟩ 0xFF) PopsOwn
        (.start ProtocolGameName.zero 0)
        (chattySession ++ [.disconnectTest .disconnect, .disconnectSend,
          .post, .disconnectEnd, .connect goodEnv, .popFront]) :=
  ⟨_, rfl, rfl, rfl, by decide +kernel⟩

-- ============================================================= the defect

/-- What is queued was received in a session that has begun, and so is
what is still to come. -/
structure Begun (c : PacketClient) : Prop where
  queued : ∀ m ∈ c.receiveQueue, m.1 < c.sessions
  coming : ∀ conn, c.mConnection = some conn → conn.self < c.sessions

/-- Without a connection there is only the queue. -/
theorem Begun.of_none (hnone : c.mConnection = none)
    (h : ∀ m ∈ c.receiveQueue, m.1 < c.sessions) : Begun c := by
  refine ⟨h, fun conn hconn => ?_⟩
  rw [hnone] at hconn
  cases hconn

variable (host ids env) in
/-- A new session. -/
theorem Begun.connecting (h : Begun c) :
    Begun (connecting host ids env c) where
  queued m hm := Nat.lt_succ_of_lt (h.queued m hm)
  coming conn hconn := by
    rw [connecting_self hconn]
    exact Nat.lt_succ_self c.sessions

theorem Begun.stepped (h : Begun c) {b : Connection.Action}
    {conn conn' : Connection} (hconn : c.mConnection = some conn)
    (hstep : Connection.step host ids b conn = some conn') :
    Begun (stepped c conn conn') := by
  have hself : conn'.self < c.sessions := by
    rw [Connection.self_step hstep]
    exact h.coming conn hconn
  refine ⟨fun m hm => ?_, fun conn₁ hconn₁ => ?_⟩
  · rcases List.mem_append.mp hm with hm | hm
    · exact h.queued m hm
    · obtain ⟨msg, -, rfl⟩ := List.mem_map.mp hm
      exact hself
  · injection hconn₁ with hconn₁
    rw [← hconn₁]
    exact hself

theorem Begun.sendBegin (h : Begun c) {packet : IPacket}
    {conn conn' : Connection} (user : User)
    (hconn : c.mConnection = some conn)
    (hsend : (Connection.sendBegin host ids packet).run conn = .ok ⟨⟩ conn') :
    Begun { c with mConnection := some conn', user } := by
  have hself := (Connection.keeps_self_of_reading
    (Connection.sendBegin_keeps_reading packet)).of_ok hsend
  refine ⟨h.queued, fun conn₁ hconn₁ => ?_⟩
  injection hconn₁ with hconn₁
  have hlt := h.coming conn hconn
  rw [← hself, hconn₁] at hlt
  exact hlt

theorem begun_move (h : Begun c) (hmove : Move host ids c a c') :
    Begun c' := by
  cases hmove with
  | @threadless env hu =>
      have hnew := Begun.connecting host ids env h
      exact ⟨hnew.queued, hnew.coming⟩
  | @terminates env hu hj =>
      have hnew := Begun.connecting host ids env h
      exact ⟨hnew.queued, hnew.coming⟩
  | @connects env hu hj =>
      have hnew := Begun.connecting host ids env h
      exact ⟨hnew.queued, hnew.coming⟩
  | sends hu hconn hsend => exact h.sendBegin _ hconn hsend
  | @userSends packet conn conn' hu hconn hsend =>
      exact h.sendBegin _ hconn hsend
  | posts hu hconn hstep =>
      have hstepped := h.stepped hconn hstep
      exact ⟨hstepped.queued, hstepped.coming⟩
  | handles _ _ hconn hstep => exact h.stepped hconn hstep
  | ends hu => exact .of_none rfl h.queued
  | pops hu hne =>
      exact ⟨fun m hm => h.queued m (List.mem_of_mem_tail hm), h.coming⟩
  | _ => exact ⟨h.queued, h.coming⟩

/-- `Connect()` returned true: its thread runs a new connection. -/
theorem of_accepts (hstatus : c.mCurrentStatus = .disconnected)
    (h : accepts host ids env c = true) :
    userCall (connect host ids env) c
      = { connecting host ids env c with mThreadContext := .running } := by
  have hcases := @connect_cases host ids c env hstatus
  unfold accepts at h
  unfold userCall
  generalize (connect host ids env).run c = r at hcases h ⊢
  cases hcases with
  | unresolved _ => cases h
  | threadless _ => cases h
  | terminates _ => cases h
  | connects hj => rfl

/-- After a `Connect()` that returned true with something in the queue
the next pop is of another session, in every run. -/
theorem pending_popped {acts : List Action} {w w' : Watched}
    (hrun : Lts.run (watch host ids disconnectID)
      (.start gameName gameVersion) acts = some w)
    (hw : watch host ids disconnectID (.connect env) w = some w')
    (haccepts : accepts host ids env w.client = true)
    (hpending : w.client.receiveQueue ≠ []) :
    (∃ w'', watch host ids disconnectID .popFront w' = some w'')
      ∧ ¬ PopsOwn w' .popFront := by
  obtain ⟨hbegun, hstatus⟩ :
      Begun w.client ∧ w.client.mCurrentStatus = .disconnected := by
    apply Lts.run_invariant
      (fun w => Begun w.client ∧ w.client.mCurrentStatus = .disconnected)
      ?_ ?_ hrun
    · rintro w a w' ⟨hbegun, hstatus⟩ hw
      obtain ⟨-, hmove, -⟩ := of_watch hw
      exact ⟨begun_move hbegun hmove, (status_move hmove).trans hstatus⟩
    · exact ⟨.of_none rfl fun m hm => absurd hm List.not_mem_nil, rfl⟩
  obtain ⟨c', hstep, rfl⟩ := Option.map_eq_some_iff.mp hw
  have hfate := (move_of_step hstep).1
  rw [step, if_neg (by simp [hfate])] at hstep
  obtain ⟨hu, rfl⟩ := Lts.of_guarded hstep
  rw [of_accepts hstatus haccepts]
  simp only [haccepts, if_true]
  have henabled : step host ids disconnectID .popFront
      { connecting host ids env w.client with mThreadContext := .running }
      = some { connecting host ids env w.client with
          mThreadContext := .running
          receiveQueue := w.client.receiveQueue.tail } := by
    rw [step, if_neg (by simp [connecting, hfate])]
    exact if_pos ⟨hu, hpending⟩
  refine ⟨⟨_, congrArg (Option.map _) henabled⟩, fun hpops => ?_⟩
  cases hqueue : w.client.receiveQueue with
  | nil => exact hpending hqueue
  | cons m rest =>
      have hlt := hbegun.queued m (by rw [hqueue]; exact List.mem_cons_self ..)
      have heq : m.1 = w.client.sessions :=
        hpops w.client.sessions rfl m (congrArg List.head? hqueue)
      omega

end PacketClient

end AWEnginePacket
