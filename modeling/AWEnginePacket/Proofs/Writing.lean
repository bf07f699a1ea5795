/-
Whole runs of the write pump.

Everything here is read off the moves of one event (`step_move`), by
the induction rules for runs.

- A connection that nothing but a failed write closes serialises:
  one write at a time, whole messages in post order, nothing after a
  failure (`write_pump_serialises`).
- `WriteHeader()` throws out of a handler unless every close is
  `Orderly`; then no posted handler and no write completion throws
  (`orderly_never_throws`), and a step that is not orderly can be
  continued to the throw (`disorderly_throws`).
- While nothing fails, completions empty the queue (`drains`).

Both start from a `Fresh` connection, which is what `ConnectToClient()`
and a successful `ConnectToServer()` leave.
-/
import AWEnginePacket.Proofs.Pump

namespace AWEnginePacket

open Endian (ByteOrder)
open Effect
open Serial (Stage Writing)

namespace Connection

variable {host : ByteOrder} {ids : PacketIDs} {c c' : Connection}
  {done : List PacketSendInfo} {stage : Stage} {a : Action}

-- ====================================================== starting states

/-- A server's side of a connection, once it is started. -/
theorem fresh_started (self : Nat) (incoming : List UInt8)
    (now : TimePoint) : Fresh host (started self incoming now) := by
  refine ⟨rfl, rfl, rfl, rfl, rfl, rfl, rfl, rfl, ?_, rfl, rfl⟩
  intro call hcall
  cases hcall

/-- A client's side of a connection, once its connect succeeded: its
`Init` packet may already be on its way. -/
theorem fresh_connectToServer {self : Nat} {incoming : List UInt8}
    {now : TimePoint} {initPacket : Option IPacket} {leftOpen : Bool}
    (h : step host ids (.connectDone true leftOpen)
      (after (connectToServer initPacket)
        (create self .toServer false incoming now)) = some c)
    (hesc : c.escaped = none) : Fresh host c := by
  obtain ⟨c₁, rfl, hc₁⟩ := of_connectToServer h hesc
  rcases hc₁ with ⟨-, rfl⟩ | ⟨packet, -, hsend⟩
  · refine ⟨rfl, rfl, rfl, rfl, rfl, rfl, rfl, rfl, ?_, rfl, rfl⟩
    intro call hcall
    cases hcall
  · obtain ⟨call, -, hposts, he⟩ := of_send_ok_posts hsend
    refine ⟨hposts.isOpen, hposts.isConnecting, hposts.connecting,
      hposts.messagesOut, hposts.writes, hposts.handed, hposts.count,
      ?_, ?_, hposts.calls, he⟩
    · show c₁.sent.map (·.info) = c₁.queued
      rw [hposts.sent, hposts.queued]
      rfl
    · intro call' hmem
      refine hposts.prepared call' ?_
      have hmem : call' ∈ c₁.sent := hmem
      rw [hposts.sent] at hmem
      exact hmem

-- ========================================================= serialisation

/-- The messages whose writes have completed. -/
def finished (c : Connection) : List PacketSendInfo :=
  (c.sent.map (·.info)).take c.mSentPacketCount

/-- The bytes of a sequence of messages, header then body of each. -/
def wire (host : ByteOrder) (ms : List PacketSendInfo) : List UInt8 :=
  Serial.wire (headerBytes host) bodyBytes ms

theorem Pump.finished_eq (hp : Pump host c done stage) :
    c.finished = done := by
  rw [finished, hp.infos, hp.count, List.append_assoc, List.take_left]

/-- What a serialiser does in a run from `c₀` to `c`. -/
structure Serialised (host : ByteOrder) (ids : PacketIDs)
    (c₀ : Connection) (acts : List Action) (c : Connection) : Prop where
  /-- At most one write is outstanding. -/
  one_write : c.writes.length ≤ 1
  /-- While no write has failed, one is exactly when there is a message. -/
  writes_iff : (∀ a ∈ acts, writeFails a = false) →
    (c.writes ≠ [] ↔ c.mMessagesOut ≠ [])
  /-- Finished, queued and posted messages are all messages in post order. -/
  infos : c.sent.map (·.info) = c.finished ++ c.mMessagesOut ++ c.queued
  /-- The counter counts the finished ones. -/
  count : c.finished.length = c.mSentPacketCount
  /-- The bytes are those of the finished messages and a part of the
  front one. -/
  bytes : ∃ part, c.handed = wire host c.finished ++ part
    ∧ part <+: c.mMessagesOut.head?.elim [] fun m =>
        headerBytes host m ++ bodyBytes m
  /-- A header write is the front's. -/
  header : c.writes = [.header] → ∃ m rest, c.mMessagesOut = m :: rest
    ∧ c.handed = wire host c.finished ++ headerBytes host m
  /-- A body write is the front's, after its header. -/
  body : c.writes = [.body] → ∃ m rest, c.mMessagesOut = m :: rest
    ∧ c.handed = wire host c.finished ++ headerBytes host m ++ bodyBytes m
  /-- No posted handler and no write completion throws. -/
  no_throw : WritesIntact c
  /-- After a failed completion no write is started. -/
  stopped : ∀ pre op now post c₁, acts = pre ++ .writeDone op false now :: post →
    Lts.run (step host ids) c₀ pre = some c₁ →
    c.writes = [] ∧ c.handed = c₁.handed

/-- Nothing but a failed write closes the socket. -/
def OnlyWritesClose (c : Connection) (a : Action) : Prop :=
  closes c a = true → writeFails a = true

instance (c : Connection) (a : Action) : Decidable (OnlyWritesClose c a) := by
  unfold OnlyWritesClose
  infer_instance

/-- The pump of a connection that has only been closed by a failed
write: connected, unless it has halted. -/
def Serving (host : ByteOrder) (c : Connection) (stage : Stage) : Prop :=
  (∃ done, Pump host c done stage)
    ∧ (c.isConnected = true ∨ stage = .halted)
    ∧ WritesIntact c

theorem serving_step (hs : Serving host c stage) (hg : OnlyWritesClose c a)
    (h : step host ids a c = some c') :
    ∃ stage', Serving host c' stage'
      ∧ (stage ≠ .halted → writeFails a = false → stage' ≠ .halted) := by
  obtain ⟨⟨done, hp⟩, hconn, -⟩ := hs
  cases step_move hp h with
  | stay hp' _ _ hopen _ _ hesc =>
      refine ⟨stage, ⟨⟨done, hp'⟩, ?_, hesc⟩, fun hne _ => hne⟩
      rw [isConnected_congr hp hp' hopen]
      exact hconn
  | close _ hkind hclose =>
      have hfail := hg hclose
      rw [writeFails_of_not_isWrite hkind] at hfail
      cases hfail
  | fail hp' _ hfail hesc =>
      refine ⟨.halted, ⟨⟨done, hp'⟩, .inr rfl, .inl hesc⟩, fun _ hno => ?_⟩
      rw [hfail] at hno
      cases hno
  | start hp' _ _ _ hconn' hesc =>
      exact ⟨.head, ⟨⟨done, hp'⟩, .inl hconn', .inl hesc⟩,
        fun _ _ => Stage.noConfusion⟩
  | body hp' hstage _ _ hopen hesc =>
      refine ⟨.body, ⟨⟨done, hp'⟩, ?_, .inl hesc⟩,
        fun _ _ => Stage.noConfusion⟩
      rw [isConnected_congr hp hp' hopen]
      rw [hstage] at hconn
      exact .inl (hconn.resolve_right Stage.noConfusion)
  | last m hp' hbusy _ _ hopen _ hesc =>
      refine ⟨.idle, ⟨⟨_, hp'⟩, ?_, .inl hesc⟩,
        fun _ _ => Stage.noConfusion⟩
      rw [isConnected_congr hp hp' hopen]
      rcases hbusy with rfl | rfl
      · exact .inl (hconn.resolve_right Stage.noConfusion)
      · exact .inl (hconn.resolve_right Stage.noConfusion)
  | next m hp' _ _ _ hconn' hesc =>
      exact ⟨.head, ⟨⟨_, hp'⟩, .inl hconn', .inl hesc⟩,
        fun _ _ => Stage.noConfusion⟩
  | refuse _ _ hne hnot =>
      rw [hconn.resolve_right hne] at hnot
      cases hnot

theorem Fresh.serving (h : Fresh host c) : Serving host c .idle := by
  refine ⟨⟨[], h.pump⟩, .inl ?_, .inl h.escaped⟩
  rw [isConnected_of_isOpen h.pump]
  exact h.isOpen

/-- The write pump is a correct serialiser on every run in which nothing
but a failed write closes the socket. -/
theorem write_pump_serialises {c₀ : Connection} {acts : List Action}
    (h₀ : Fresh host c₀)
    (hmeets : Lts.Meets (step host ids) OnlyWritesClose c₀ acts)
    (hrun : Lts.run (step host ids) c₀ acts = some c) :
    Serialised host ids c₀ acts c := by
  obtain ⟨stage, ⟨done, hp⟩, hconn, hesc⟩ :=
    Lts.run_invariant_of_meets (fun c => ∃ stage, Serving host c stage)
      (fun c a c' ⟨stage, hs⟩ hg h =>
        (serving_step hs hg h).imp fun _ hs' => hs'.1)
      ⟨.idle, h₀.serving⟩ hmeets hrun
  have hfin := hp.finished_eq
  have hwriting := hp.writing
  have hwrites := hp.writes
  refine ⟨?_, ?_, ?_, ?_, ?_, ?_, ?_, ?_, ?_⟩
  · rw [hwrites]
    exact outstanding_length stage
  · intro hok
    obtain ⟨stage', ⟨⟨done', hp'⟩, -⟩, hne⟩ := Lts.run_invariant_of_meets
      (fun c => ∃ stage, Serving host c stage ∧ stage ≠ .halted)
      (fun c a c' ⟨stage, hs, hne⟩ hg h =>
        (serving_step hs hg.1 h).imp fun _ hs' => ⟨hs'.1, hs'.2 hne hg.2⟩)
      ⟨.idle, h₀.serving, Stage.noConfusion⟩ (hmeets.and_forall hok) hrun
    exact hp'.writes_iff hne
  · rw [hfin]
    exact hp.infos
  · rw [hfin]
    exact hp.count.symm
  · rw [hfin]
    exact hwriting.exists_part
  · intro hheader
    rw [hwrites, outstanding_eq_header_iff] at hheader
    rw [hheader] at hwriting
    rw [hfin]
    exact hwriting.of_head
  · intro hbody
    rw [hwrites, outstanding_eq_body_iff] at hbody
    rw [hbody] at hwriting
    rw [hfin]
    exact hwriting.of_body
  · exact hesc
  · intro pre op now post c₁ hacts hpre
    rw [hacts, Lts.run_append_eq_some] at hrun
    obtain ⟨c₁', hpre', hrun⟩ := hrun
    rw [hpre, Option.some.injEq] at hpre'
    subst hpre'
    obtain ⟨c₂, hstep, hpost⟩ := Lts.run_cons_eq_some.mp hrun
    obtain ⟨hmem, hc₂⟩ := of_step_writeDone hstep
    obtain ⟨done₁, stage₁, hp₁⟩ := pump_run h₀ hpre
    rw [hp₁.writes_eq hmem, List.erase_cons_head, writeFailed_eq] at hc₂
    obtain ⟨-, hhalted⟩ := hp₁.writeFailed (List.ne_nil_of_mem hmem)
    rw [← hc₂] at hhalted
    obtain ⟨hp₂, hsame⟩ := halted_run hhalted hpost
    rw [hc₂] at hsame
    exact ⟨hp₂.writes, hsame⟩

/-- The run that sends one ping whose body write fails. -/
theorem write_pump_serialises_failed_body :
    ∃ c, Lts.run (step .little ⟨1, 2⟩) (started 0 [] 0)
        [.send (Ping.toPacket .little 1 ⟨7⟩), .posted,
          .writeDone .header true 1, .writeDone .body false 2] = some c
      ∧ Serialised .little ⟨1, 2⟩ (started 0 [] 0)
        [.send (Ping.toPacket .little 1 ⟨7⟩), .posted,
          .writeDone .header true 1, .writeDone .body false 2] c :=
  ⟨_, rfl, write_pump_serialises (fresh_started 0 [] 0) (by decide) rfl⟩

-- ======================================================= orderly closes

/-- The step does not leave messages behind a closed socket: it does not
close the socket while the queue is empty and messages are on their way
to it, and on a closed socket it does not end a message with another
one to follow. -/
def Orderly (c : Connection) (a : Action) : Prop :=
  (closes c a = true → c.mMessagesOut = [] → c.onTheWay = [])
    ∧ (finishes c a = true → c.isOpen = false →
      c.mMessagesOut.tail = [] ∧ c.onTheWay = [])

instance (c : Connection) (a : Action) : Decidable (Orderly c a) := by
  unfold Orderly
  infer_instance

/-- The pump as orderly closes leave it: an idle one is connected, or
nothing will reach it any more. -/
def Settled (host : ByteOrder) (c : Connection) : Prop :=
  (∃ done stage, Pump host c done stage
      ∧ (stage = .idle → c.isConnected = true ∨ c.onTheWay = []))
    ∧ WritesIntact c

theorem Fresh.settled (h : Fresh host c) : Settled host c := by
  refine ⟨⟨[], .idle, h.pump, fun _ => .inl ?_⟩, .inl h.escaped⟩
  rw [isConnected_of_isOpen h.pump]
  exact h.isOpen

theorem settled_step (hs : Settled host c) (hg : Orderly c a)
    (h : step host ids a c = some c') : Settled host c' := by
  obtain ⟨⟨done, stage, hp, hidle⟩, -⟩ := hs
  obtain ⟨hclosing, hfinishing⟩ := hg
  cases step_move hp h with
  | stay hp' _ _ hopen _ hway hesc =>
      refine ⟨⟨done, stage, hp', fun hstage => ?_⟩, hesc⟩
      rw [isConnected_congr hp hp' hopen]
      rcases hidle hstage with hc | hnil
      · exact .inl hc
      · cases hc : c.isConnected with
        | true => exact .inl rfl
        | false => exact .inr (hway hc hnil)
  | close hp' _ hclose _ _ _ hway hesc =>
      refine ⟨⟨done, stage, hp', fun hstage => .inr ?_⟩, .inl hesc⟩
      rw [hway]
      exact hclosing hclose (hp.writing.queue_eq_nil_iff.mpr hstage)
  | fail hp' _ _ hesc =>
      exact ⟨⟨done, .halted, hp', Stage.noConfusion⟩, .inl hesc⟩
  | start hp' _ _ _ _ hesc =>
      exact ⟨⟨done, .head, hp', Stage.noConfusion⟩, .inl hesc⟩
  | body hp' _ _ _ _ hesc =>
      exact ⟨⟨done, .body, hp', Stage.noConfusion⟩, .inl hesc⟩
  | last m hp' _ hfin _ hopen hway hesc =>
      refine ⟨⟨_, .idle, hp', fun _ => ?_⟩, .inl hesc⟩
      rw [isConnected_of_isOpen hp', hopen, hway]
      cases hc : c.isOpen with
      | true => exact .inl rfl
      | false => exact .inr (hfinishing hfin hc).2
  | next m hp' _ _ _ _ hesc =>
      exact ⟨⟨_, .head, hp', Stage.noConfusion⟩, .inl hesc⟩
  | refuse _ _ _ hnot hwhy =>
      exfalso
      rcases hwhy with ⟨hstage, hway⟩ | ⟨hfin, htail⟩
      · rcases hidle hstage with hc | hnil
        · rw [hc] at hnot
          cases hnot
        · exact hway hnil
      · rw [isConnected_of_isOpen hp] at hnot
        exact htail (hfinishing hfin hnot).1

/-- When every close is orderly, `WriteHeader()` is only entered while
the connection is connected: no handler throws its exception, and none
of those that call it throws anything. -/
theorem orderly_never_throws {c₀ : Connection} {acts : List Action}
    (h₀ : Fresh host c₀)
    (hmeets : Lts.Meets (step host ids) Orderly c₀ acts)
    (hrun : Lts.run (step host ids) c₀ acts = some c) : WritesIntact c := by
  have hsettled := Lts.run_invariant_of_meets (Settled host)
    (fun c a c' hs hg h => settled_step hs hg h) h₀.settled hmeets hrun
  exact hsettled.2

/-- The throw, as the end of some run. -/
def CanThrow (host : ByteOrder) (ids : PacketIDs) (c : Connection) : Prop :=
  ∃ acts c' kind, Lts.run (step host ids) c acts = some c'
    ∧ c'.escaped = some (kind, notConnected)

theorem CanThrow.of_step (hstep : step host ids a c = some c')
    (h : CanThrow host ids c') : CanThrow host ids c := by
  obtain ⟨acts, c'', kind, hrun, he⟩ := h
  exact ⟨a :: acts, c'', kind, Lts.run_cons hstep hrun, he⟩

theorem step_posted {handler : Handler} {handlers : List Handler}
    (hesc : c.escaped = none) (hposted : c.posted = handler :: handlers) :
    step host ids .posted c = some (runHandler .posted
      (runPosted host handler) { c with posted := handlers }) := by
  rw [step_eq_event hesc]
  unfold event
  simp only [hposted]

/-- A message posted to an idle pump behind a closed socket. -/
theorem canThrow_of_queued (handlers : List Handler) :
    ∀ {c : Connection} {done : List PacketSendInfo},
      Pump host c done .idle → c.posted = handlers → c.isOpen = false →
      c.escaped = none → c.queued ≠ [] → CanThrow host ids c := by
  induction handlers with
  | nil =>
      intro c done _ hposted _ _ hqueued
      rw [queued, hposted] at hqueued
      exact absurd rfl hqueued
  | cons handler handlers ih =>
      intro c done hp hposted hopen hesc hqueued
      have hstep : step host ids .posted c = some _ :=
        step_posted hesc hposted
      cases handler with
      | queueMessage m =>
          have hq : c.mMessagesOut = [] :=
            hp.writing.queue_eq_nil_iff.mpr rfl
          have hconn : c.isConnected = false :=
            (isConnected_of_isOpen hp).trans hopen
          have hrun : (queueMessage host m).run { c with posted := handlers }
              = .error notConnected _ :=
            (queueMessage_idle (by exact hq)).trans
              (writeHeader_refused (by exact hconn))
          refine ⟨[.posted], _, .posted, Lts.run_singleton.mpr hstep, ?_⟩
          rw [runPosted, runHandler, hrun]
      | close =>
          obtain ⟨-, hp'⟩ : True ∧ Pump host
              { c with posted := handlers, isOpen := false } done .idle := by
            refine ⟨trivial, hp.writing, hp.writes, ?_, hp.count,
              hp.sentPrepared, hp.callsPrepared, hp.isConnecting,
              hp.connecting⟩
            have hinfos := hp.infos
            rw [queued, hposted] at hinfos
            exact hinfos
          refine .of_step hstep (ih hp' rfl rfl hesc ?_)
          rw [queued, hposted] at hqueued
          exact hqueued

/-- A message on its way to an idle pump behind a closed socket. -/
theorem canThrow_of_onTheWay (hp : Pump host c done .idle)
    (hopen : c.isOpen = false) (hesc : c.escaped = none)
    (hway : c.onTheWay ≠ []) : CanThrow host ids c := by
  by_cases hqueued : c.queued = []
  · -- the message is still between `Send`'s check and its post
    cases hcalls : c.calls with
    | nil =>
        rw [onTheWay, hqueued, hcalls] at hway
        exact absurd rfl hway
    | cons call calls =>
        have hstep : step host ids (.sendEnd 0) c
            = some (after (post call) { c with calls := calls }) := by
          unfold step event
          rw [if_neg (by rw [hesc]; exact Bool.false_ne_true)]
          simp only [hcalls]
          rfl
        have hp' := hp.with_calls calls fun call' hmem =>
          hp.callsPrepared call' (hcalls ▸ List.mem_cons_of_mem call hmem)
        have hcall : Prepared host call :=
          hp.callsPrepared call (hcalls ▸ List.mem_cons_self ..)
        refine .of_step hstep (canThrow_of_queued _ (hp'.post hcall) rfl
          hopen hesc ?_)
        show (c.posted ++ [Handler.queueMessage call.info]).filterMap _ ≠ []
        rw [List.filterMap_append]
        exact List.append_ne_nil_of_right_ne_nil _ (List.cons_ne_nil _ _)
  · exact canThrow_of_queued _ hp rfl hopen hesc hqueued

/-- The condition is exact: a step that is not orderly can be continued
to a run in which `WriteHeader()` throws out of a handler. -/
theorem disorderly_throws (hs : Settled host c) (hnot : ¬ Orderly c a)
    (h : step host ids a c = some c') : CanThrow host ids c' := by
  obtain ⟨⟨done, stage, hp, -⟩, -⟩ := hs
  unfold Orderly at hnot
  cases step_move hp h with
  | refuse done' _ _ _ _ hesc =>
      obtain ⟨kind, he⟩ := hesc
      exact ⟨[], c', kind, rfl, he⟩
  | close hp' hkind hclose hopen _ _ hway hesc =>
      have hfin : finishes c a = false := finishes_eq_false hkind
      have hidle : c.mMessagesOut = [] ∧ c.onTheWay ≠ [] := by
        simpa [hclose, hfin] using hnot
      obtain ⟨hq, hne⟩ := hidle
      rw [hp.writing.queue_eq_nil_iff.mp hq] at hp'
      exact canThrow_of_onTheWay hp' hopen hesc (hway ▸ hne)
  | last m hp' _ hfin htail hopen hway hesc =>
      have hclosed : c.isOpen = false ∧ c.onTheWay ≠ [] := by
        simpa [(of_finishes hfin).2.1, hfin, htail] using hnot
      rw [← hopen, ← hway] at hclosed
      exact canThrow_of_onTheWay hp' hclosed.1 hesc hclosed.2
  | next m _ _ hfin hopen =>
      exact absurd ⟨by simp [(of_finishes hfin).2.1], by simp [hopen]⟩ hnot
  | stay _ hkind hclose =>
      have hfin : finishes c a = false := finishes_eq_false hkind
      exact absurd ⟨by simp [hclose], by simp [hfin]⟩ hnot
  | start _ _ hkind hclose =>
      have hfin : finishes c a = false := finishes_eq_false hkind
      exact absurd ⟨by simp [hclose], by simp [hfin]⟩ hnot
  | body _ _ hfin hclose =>
      exact absurd ⟨by simp [hclose], by simp [hfin]⟩ hnot
  | fail _ hbusy hfail =>
      -- a failed write closes with its message still in the queue
      have hfin : finishes c a = false := by
        cases hfin : finishes c a with
        | false => rfl
        | true =>
            rw [(of_finishes hfin).2.2] at hfail
            cases hfail
      have hq : c.mMessagesOut ≠ [] := by
        rw [ne_eq, hp.writing.queue_eq_nil_iff]
        rcases hbusy with rfl | rfl
        · exact Stage.noConfusion
        · exact Stage.noConfusion
      exact absurd ⟨by simp [hq], by simp [hfin]⟩ hnot

/-- A run with an orderly close: the queue is empty and nothing is on its
way when the posted close runs. -/
theorem orderly_never_throws_disconnect :
    ∃ c, Lts.run (step .little ⟨1, 2⟩) (started 0 [] 0)
        [.send (Ping.toPacket .little 1 ⟨7⟩), .posted,
          .writeDone .header true 1, .writeDone .body true 2,
          .disconnect, .posted] = some c
      ∧ c.isOpen = false ∧ WritesIntact c :=
  ⟨_, rfl, rfl, @orderly_never_throws .little ⟨1, 2⟩ _ _
    [.send (Ping.toPacket .little 1 ⟨7⟩), .posted,
      .writeDone .header true 1, .writeDone .body true 2, .disconnect,
      .posted] (fresh_started 0 [] 0) (by decide) rfl⟩

/-- A `Disconnect()` and a `Send` from two threads are enough: the
message passed the check, and its handler runs after the close. -/
theorem writeHeader_entered_closed :
    ¬ ∀ (host : ByteOrder) (ids : PacketIDs) (c₀ c : Connection)
        (acts : List Action), Fresh host c₀ →
      Lts.run (step host ids) c₀ acts = some c →
      ∀ kind, c.escaped ≠ some (kind, notConnected) := by
  intro h
  refine h .little ⟨1, 2⟩ (started 0 [] 0) _
    [.disconnect, .send (Ping.toPacket .little 1 ⟨7⟩), .posted, .posted]
    (fresh_started 0 [] 0) rfl .posted ?_
  rfl

-- ============================================================= draining

/-- The queue is empty and nothing posted is on its way to it. -/
def Drained (c : Connection) : Prop := c.mMessagesOut = [] ∧ c.queued = []

/-- An upper bound on the steps still to come before the queue is
empty. -/
def work (c : Connection) (stage : Stage) : Nat :=
  4 * c.posted.length + 2 * c.mMessagesOut.length
    + if stage = .head then 1 else 0

theorem work_of_posted (hposted : c.posted = []) (stage : Stage) :
    work c stage
      = 2 * c.mMessagesOut.length + if stage = .head then 1 else 0 := by
  rw [work, hposted]
  simp

/-- A connection at work on messages only: connected, and no close
posted. -/
structure Working (host : ByteOrder) (c : Connection) (stage : Stage) :
    Prop where
  serving : Serving host c stage
  running : stage ≠ .halted
  escaped : c.escaped = none
  open_ended : .close ∉ c.posted

/-- On a connected connection a posted message is queued without a
throw. -/
theorem queueMessage_connected {m : PacketSendInfo}
    (hc : c.isConnected = true) :
    ∃ c', (queueMessage host m).run c = .ok ⟨⟩ c'
      ∧ c'.mMessagesOut = c.mMessagesOut ++ [m] := by
  by_cases hq : c.mMessagesOut = []
  · rw [queueMessage_idle hq, writeHeader_connected (by exact hc) rfl, hq]
    exact ⟨_, rfl, rfl⟩
  · rw [queueMessage_busy hq]
    exact ⟨_, rfl, rfl⟩

variable (ids) in
/-- A posted message is work done. -/
theorem work_posted (hw : Working host c stage) {handler : Handler}
    {handlers : List Handler} (hposted : c.posted = handler :: handlers) :
    ∃ c' stage', step host ids .posted c = some c'
      ∧ Working host c' stage' ∧ c'.sent = c.sent
      ∧ work c' stage' < work c stage := by
  have hstep : step host ids .posted c = some _ :=
    step_posted hw.escaped hposted
  have hopen := hw.open_ended
  rw [hposted] at hopen
  cases handler with
  | close => exact absurd (List.mem_cons_self ..) hopen
  | queueMessage m =>
      have hconn : isConnected { c with posted := handlers } = true :=
        hw.serving.2.1.resolve_right hw.running
      obtain ⟨c', hrun, hout⟩ :
          ∃ c', (queueMessage host m).run { c with posted := handlers }
            = .ok ⟨⟩ c' ∧ _ := queueMessage_connected hconn
      obtain ⟨hapart, hesc, -⟩ := (queueMessage_keeps m).of_ok hrun
      rw [runPosted, runHandler, hrun] at hstep
      have hg : OnlyWritesClose c .posted := by
        intro hclose
        simp [closes, hposted] at hclose
      obtain ⟨stage', hs', hne⟩ := serving_step hw.serving hg hstep
      have hhandlers : c'.posted = handlers :=
        of_apart Connection.posted (fun _ => rfl) hapart
      have hsent : c'.sent = sent { c with posted := handlers } :=
        of_apart Connection.sent (fun _ => rfl) hapart
      refine ⟨c', stage', hstep, ⟨hs', hne hw.running rfl,
        hesc.trans hw.escaped, ?_⟩, hsent, ?_⟩
      · rw [hhandlers]
        exact fun hmem => hopen (List.mem_cons_of_mem _ hmem)
      · rw [work, work, hhandlers, hposted, hout, List.length_cons,
          List.length_append, List.length_singleton]
        split <;> split <;> simp only <;> omega

variable (ids) in
/-- A completed write is work done. -/
theorem work_written (hw : Working host c stage) (hposted : c.posted = [])
    (hout : c.mMessagesOut ≠ []) :
    ∃ a c' stage', step host ids a c = some c'
      ∧ Working host c' stage' ∧ c'.sent = c.sent
      ∧ work c' stage' < work c stage := by
  obtain ⟨⟨done, hp⟩, hconn, -⟩ := hw.serving
  obtain ⟨op, ops, hwrites⟩ := List.exists_cons_of_ne_nil
    ((hp.writes_iff hw.running).mpr hout)
  have hmem : op ∈ c.writes := hwrites ▸ List.mem_cons_self ..
  obtain ⟨c', hc'⟩ : ∃ c', c' = runHandler .write
    (writeCompleted host op true 0) { c with writes := c.writes.erase op } :=
    ⟨_, rfl⟩
  have hstep : step host ids (.writeDone op true 0) c = some c' := by
    unfold step event
    rw [if_neg (by rw [hw.escaped]; exact Bool.false_ne_true)]
    simp only
    rw [if_pos hmem, hc']
  have hapart : c'.apart = c.apart := by
    rw [hc']
    exact (runHandler_apart (writeCompleted_keeps op true 0) _).1
  have hposted' : c'.posted = c.posted :=
    of_apart Connection.posted (fun _ => rfl) hapart
  have hsent : c'.sent = c.sent :=
    of_apart Connection.sent (fun _ => rfl) hapart
  have hconn := hconn.resolve_right hw.running
  have hworking {done' : List PacketSendInfo} {stage' : Stage}
      (hp' : Pump host c' done' stage') (hconn' : c'.isConnected = true)
      (hne : stage' ≠ .halted) (hesc : c'.escaped = none) :
      Working host c' stage' := by
    refine ⟨⟨⟨done', hp'⟩, .inl hconn', .inl hesc⟩, hne, hesc, ?_⟩
    rw [hposted']
    exact hw.open_ended
  -- no message is posted any more, so the queue is what is not yet done
  have hbefore := hp.sent_length hposted
  have hwork := work_of_posted hposted
  have hwork' := @work_of_posted c' (hposted'.trans hposted)
  refine ⟨.writeDone op true 0, c', ?_⟩
  cases step_move hp hstep with
  | stay _ hkind => cases hkind
  | close _ hkind => cases hkind
  | start _ _ hkind => cases hkind
  | fail _ _ hfail => cases hfail
  | refuse _ _ _ hnot =>
      rw [hconn] at hnot
      cases hnot
  | body hp' hstage _ _ hopen hesc =>
      have hconn' := (isConnected_congr hp hp' hopen).trans hconn
      have hafter := hp'.sent_length (hposted'.trans hposted)
      refine ⟨.body, hstep, hworking hp' hconn' Stage.noConfusion hesc,
        hsent, ?_⟩
      rw [hwork stage, hwork', hstage, if_pos rfl, if_neg Stage.noConfusion]
      rw [hsent] at hafter
      omega
  | last m hp' hbusy _ _ hopen _ hesc =>
      have hconn' := (isConnected_congr hp hp' hopen).trans hconn
      have hafter := hp'.sent_length (hposted'.trans hposted)
      refine ⟨.idle, hstep, hworking hp' hconn' Stage.noConfusion hesc,
        hsent, ?_⟩
      rw [hwork stage, hwork', if_neg Stage.noConfusion]
      rw [hsent, List.length_append, List.length_singleton] at hafter
      omega
  | next m hp' _ _ _ hconn' hesc =>
      have hafter := hp'.sent_length (hposted'.trans hposted)
      refine ⟨.head, hstep, hworking hp' hconn' Stage.noConfusion hesc,
        hsent, ?_⟩
      rw [hwork stage, hwork', if_pos rfl]
      rw [hsent, List.length_append, List.length_singleton] at hafter
      omega

variable (ids) in
/-- While nothing fails and nothing else is sent, completions empty the
queue. -/
theorem drains (hw : Working host c stage) :
    ∃ acts c', Lts.run (step host ids) c acts = some c'
      ∧ Drained c' ∧ c'.sent = c.sent := by
  obtain ⟨n, hn⟩ : ∃ n, work c stage = n := ⟨_, rfl⟩
  induction n using Nat.strong_induction_on generalizing c stage with
  | _ n ih =>
    -- one step is always possible until the queue is empty
    have hcontinue (a : Action) (c' : Connection) (stage' : Stage)
        (hstep : step host ids a c = some c') (hw' : Working host c' stage')
        (hsent : c'.sent = c.sent) (hless : work c' stage' < work c stage) :
        ∃ acts c'', Lts.run (step host ids) c acts = some c''
          ∧ Drained c'' ∧ c''.sent = c.sent := by
      obtain ⟨acts, c'', hrun, hdrained, hsent'⟩ :=
        ih _ (hn ▸ hless) hw' rfl
      exact ⟨a :: acts, c'', Lts.run_cons hstep hrun, hdrained,
        hsent'.trans hsent⟩
    cases hposted : c.posted with
    | cons handler handlers =>
        obtain ⟨c', stage', hstep, hw', hsent, hless⟩ :=
          work_posted ids hw hposted
        exact hcontinue _ c' stage' hstep hw' hsent hless
    | nil =>
        by_cases hout : c.mMessagesOut = []
        · refine ⟨[], c, rfl, ⟨hout, ?_⟩, rfl⟩
          rw [queued, hposted]
          rfl
        · obtain ⟨a, c', stage', hstep, hw', hsent, hless⟩ :=
            work_written ids hw hposted hout
          exact hcontinue a c' stage' hstep hw' hsent hless

variable (ids) in
/-- A packet sent on a fresh connection with nothing else to do is
written. -/
theorem send_drains {packet : IPacket} {body : PacketBuffer}
    (h₀ : Fresh host c) (hposted : c.posted = [])
    (hw : packet.write.run {} = .ok ⟨⟩ body) :
    ∃ acts c' call, Lts.run (step host ids) c acts = some c'
      ∧ Drained c' ∧ call.packet = packet ∧ c'.sent = c.sent ++ [call] := by
  have hconn : c.isConnected = true := by
    rw [isConnected_of_isOpen h₀.pump]
    exact h₀.isOpen
  obtain ⟨c₁, hc₁⟩ : ∃ c₁, (send host ids packet).run c = .ok ⟨⟩ c₁ :=
    ⟨_, send_run_of_ok hconn hw⟩
  have hstep : step host ids (.send packet) c = some c₁ := by
    unfold step event
    rw [if_neg (by rw [h₀.escaped]; exact Bool.false_ne_true)]
    simp only [hc₁]
  obtain ⟨call, hpacket, hposts, hesc⟩ := of_send_ok_posts hc₁
  have hworking : Working host c₁ .idle := by
    have hesc' : c₁.escaped = none := hesc.trans h₀.escaped
    refine ⟨⟨⟨[], h₀.pump.of_posts hposts⟩, .inl ?_, .inl hesc'⟩,
      Stage.noConfusion, hesc', ?_⟩
    · rw [hposts.isConnected]
      exact hconn
    · rw [hposts.posted, hposted]
      simp
  obtain ⟨acts, c', hrun, hdrained, hsent⟩ := drains ids hworking
  exact ⟨.send packet :: acts, c', call, Lts.run_cons hstep hrun, hdrained,
    hpacket, hsent.trans hposts.sent⟩

end Connection

end AWEnginePacket
