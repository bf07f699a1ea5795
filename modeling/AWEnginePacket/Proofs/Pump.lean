/-
The write pump.

`Pump` says that a connection's sending side is a serialiser in one of
its four situations (`Serial.Writing`): the messages posted so far are
the finished ones, the outgoing queue and the posted handlers, in that
order; the outstanding write is the one the situation calls for; the
sent-packet counter counts the finished ones.

# One inversion lemma

`step_move` lists what one event can do to the pump, as one of the
eight cases of `Move`. The results about runs only look at `Move`:
`pump_run` (every reachable state is in one of the four situations),
the serialiser theorem for connections that nothing but a failed write
closes, and the exact condition under which `WriteHeader()` never
throws out of a handler.

# Where `WriteHeader()` throws

It tests `IsConnected()` when it runs, which is not when `Send` tested
it. It runs on a closed socket in two ways: a posted message finds the
queue empty, or a write that had completed before the close finishes a
message and there is another one. `Orderly` excludes both, before the
step and in terms of the queues alone.
-/
import AWEnginePacket.Lib.Lts
import AWEnginePacket.Lib.Serial
import AWEnginePacket.Proofs.Steps

namespace AWEnginePacket

open Endian (ByteOrder)
open Effect
open Serial (Stage Writing)

-- ============================================================== buffers

theorem PacketBuffer.bytesFrom_length (b : PacketBuffer) (n : Nat) :
    (b.bytesFrom n).length = n := by
  rw [PacketBuffer.bytesFrom, List.length_map, List.length_range]

theorem PacketBuffer.bytes_length (b : PacketBuffer) :
    b.bytes.length = b.size.toNat := b.bytesFrom_length b.size.toNat

theorem PacketBuffer.empty_iff {b : PacketBuffer} :
    b.empty = true ↔ b.bytes = [] := by
  rw [← List.length_eq_zero_iff, b.bytes_length, PacketBuffer.empty,
    decide_eq_true_iff, UInt32.le_iff_toNat_le]
  exact Nat.le_zero

namespace Connection

/-- The bytes `WriteHeader()` hands to the socket for a message. -/
def headerBytes (host : ByteOrder) (m : PacketSendInfo) : List UInt8 :=
  m.header.toMemory host

/-- The bytes `WriteBody()` hands to the socket for a message. -/
def bodyBytes (m : PacketSendInfo) : List UInt8 := m.body.bytes

/-- The outstanding writes of a situation. -/
def outstanding : Stage → List WriteOp
  | .head => [.header]
  | .body => [.body]
  | .idle | .halted => []

variable (host : ByteOrder) (ids : PacketIDs)

/-- The sending side is a serialiser that has finished `done` and is in
situation `stage`. -/
structure Pump (c : Connection) (done : List PacketSendInfo)
    (stage : Stage) : Prop where
  writing : Writing (headerBytes host) bodyBytes done c.mMessagesOut stage
    c.handed
  writes : c.writes = outstanding stage
  infos : c.sent.map (·.info) = done ++ c.mMessagesOut ++ c.queued
  count : c.mSentPacketCount = done.length
  sentPrepared : ∀ call ∈ c.sent, Prepared host call
  callsPrepared : ∀ call ∈ c.calls, Prepared host call
  isConnecting : c.mIsConnecting = false
  connecting : c.connecting = false

/-- A connected connection on which nothing has been written. -/
structure Fresh (c : Connection) : Prop where
  isOpen : c.isOpen = true
  isConnecting : c.mIsConnecting = false
  connecting : c.connecting = false
  messagesOut : c.mMessagesOut = []
  writes : c.writes = []
  handed : c.handed = []
  count : c.mSentPacketCount = 0
  infos : c.sent.map (·.info) = c.queued
  sentPrepared : ∀ call ∈ c.sent, Prepared host call
  calls : c.calls = []
  escaped : c.escaped = none

/-- The step is a successful completion that ends a message. -/
def finishes (c : Connection) : Action → Bool
  | .writeDone .header true _ =>
      c.mMessagesOut.head?.elim false fun m => m.body.empty
  | .writeDone .body true _ => true
  | _ => false

/-- The step is the completion of a write. -/
def isWrite : Action → Bool
  | .writeDone _ _ _ => true
  | _ => false

/-- The step is the completion of a write that failed. -/
def writeFails : Action → Bool
  | .writeDone _ ok _ => !ok
  | _ => false

variable {host ids} {c c' : Connection} {done : List PacketSendInfo}
  {stage : Stage} {a : Action} {m : PacketSendInfo}
  {rest : List PacketSendInfo} {now : TimePoint}

-- ============================================================= handlers

theorem peekFront_run (hq : c.mMessagesOut = m :: rest) :
    peekFront.run c = .ok m c := by
  unfold peekFront
  rw [EStateM.run_bind, EStateM.run_get]
  simp only [hq]
  rfl

theorem popFront_run (hq : c.mMessagesOut = m :: rest) :
    popFront.run c = .ok ⟨⟩ { c with mMessagesOut := rest } := by
  unfold popFront
  rw [EStateM.run_bind, EStateM.run_get]
  simp only [hq]
  rfl

theorem writeHeader_connected (hc : c.isConnected = true)
    (hq : c.mMessagesOut = m :: rest) :
    (writeHeader host).run c
      = .ok ⟨⟩ { c with writes := c.writes ++ [.header]
                        handed := c.handed ++ headerBytes host m } := by
  unfold writeHeader
  rw [EStateM.run_bind, EStateM.run_get]
  simp only [hc, Bool.not_true, Bool.false_eq_true, if_false]
  rw [run_bind_of_ok (peekFront_run hq)]
  rfl

theorem writeHeader_refused (hc : c.isConnected = false) :
    (writeHeader host).run c = .error notConnected c := by
  unfold writeHeader
  rw [EStateM.run_bind, EStateM.run_get]
  simp only [hc, Bool.not_false, if_true]
  rfl

/-- A posted message behind others only joins the queue. -/
theorem queueMessage_busy (hq : c.mMessagesOut ≠ []) :
    (queueMessage host m).run c
      = .ok ⟨⟩ { c with mMessagesOut := c.mMessagesOut ++ [m] } := by
  have hne : (!c.mMessagesOut.isEmpty) = true := by
    rw [Bool.not_eq_true', List.isEmpty_eq_false_iff]
    exact hq
  unfold queueMessage
  rw [EStateM.run_bind, EStateM.run_get]
  simp only [hne, Bool.not_true, Bool.false_eq_true, if_false]
  rfl

/-- A posted message on an empty queue is put there and written. -/
theorem queueMessage_idle (hq : c.mMessagesOut = []) :
    (queueMessage host m).run c
      = (writeHeader host).run { c with mMessagesOut := [m] } := by
  have hne : (!c.mMessagesOut.isEmpty) = false := by
    rw [hq]
    rfl
  unfold queueMessage
  rw [EStateM.run_bind, EStateM.run_get]
  simp only [hne, Bool.not_false, if_true]
  rw [EStateM.run_bind, EStateM.run_modify]
  simp only [hq, List.nil_append]

/-- The connection once its front message is finished. -/
def messageDone (c : Connection) (rest : List PacketSendInfo)
    (now : TimePoint) : Connection :=
  { c with mMessagesOut := rest, mLastSentMessageTime := now
           mSentPacketCount := c.mSentPacketCount + 1 }

/-- The end of a message: count it, and write the next one if there is
one. -/
theorem messageWritten_run (hq : c.mMessagesOut = m :: rest) :
    (messageWritten host now).run c
      = if rest = [] then .ok ⟨⟩ (messageDone c rest now)
        else (writeHeader host).run (messageDone c rest now) := by
  unfold messageWritten
  rw [run_bind_of_ok (popFront_run hq)]
  cases rest with
  | nil => rfl
  | cons m' rest' => rfl

/-- A written header is followed by the body, where there is one. -/
theorem headerWritten_run (hq : c.mMessagesOut = m :: rest) :
    (headerWritten host true now).run c
      = if m.body.empty then (messageWritten host now).run c
        else .ok ⟨⟩ { c with writes := c.writes ++ [.body]
                             handed := c.handed ++ bodyBytes m } := by
  have hfront := peekFront_run hq
  unfold headerWritten
  rw [if_pos rfl, run_bind_of_ok hfront]
  cases m.body.empty with
  | true => rfl
  | false =>
      simp only [Bool.not_false, if_true]
      unfold writeBody
      rw [run_bind_of_ok hfront]
      rfl

-- ================================================================ moves

/-- What one event does to the pump. -/
inductive Move (host : ByteOrder) (c : Connection) (a : Action)
    (c' : Connection) (done : List PacketSendInfo) (stage : Stage) : Prop
  /-- Nothing, but for messages that join the queue or set out. -/
  | stay (hp : Pump host c' done stage) (hkind : isWrite a = false)
      (hclose : closes c a = false) (hopen : c'.isOpen = c.isOpen)
      (hhanded : c'.handed = c.handed)
      (hway : c.isConnected = false → c.onTheWay = [] → c'.onTheWay = [])
      (hesc : WritesIntact c')
  /-- The socket is closed by something other than a failed write. -/
  | close (hp : Pump host c' done stage) (hkind : isWrite a = false)
      (hclose : closes c a = true) (hopen : c'.isOpen = false)
      (hout : c'.mMessagesOut = c.mMessagesOut)
      (hhanded : c'.handed = c.handed) (hway : c'.onTheWay = c.onTheWay)
      (hesc : c'.escaped = none)
  /-- The outstanding write failed. -/
  | fail (hp : Pump host c' done .halted)
      (hstage : stage = .head ∨ stage = .body)
      (hfail : writeFails a = true) (hesc : c'.escaped = none)
  /-- A posted message found the queue empty. -/
  | start (hp : Pump host c' done .head) (hstage : stage = .idle)
      (hkind : isWrite a = false) (hclose : closes c a = false)
      (hconn : c'.isConnected = true) (hesc : c'.escaped = none)
  /-- The front's header is written, its body follows. -/
  | body (hp : Pump host c' done .body) (hstage : stage = .head)
      (hfin : finishes c a = false) (hclose : closes c a = false)
      (hopen : c'.isOpen = c.isOpen) (hesc : c'.escaped = none)
  /-- The front is finished and was the last. -/
  | last (m : PacketSendInfo) (hp : Pump host c' (done ++ [m]) .idle)
      (hstage : stage = .head ∨ stage = .body)
      (hfin : finishes c a = true) (htail : c.mMessagesOut.tail = [])
      (hopen : c'.isOpen = c.isOpen) (hway : c'.onTheWay = c.onTheWay)
      (hesc : c'.escaped = none)
  /-- The front is finished and the next one begun. -/
  | next (m : PacketSendInfo) (hp : Pump host c' (done ++ [m]) .head)
      (hstage : stage = .head ∨ stage = .body)
      (hfin : finishes c a = true) (hopen : c.isOpen = true)
      (hconn : c'.isConnected = true) (hesc : c'.escaped = none)
  /-- `WriteHeader()` was entered on a closed socket. -/
  | refuse (done' : List PacketSendInfo) (hp : Pump host c' done' .halted)
      (hstage : stage ≠ .halted) (hconn : c.isConnected = false)
      (hwhy : stage = .idle ∧ c.onTheWay ≠ []
        ∨ finishes c a = true ∧ c.mMessagesOut.tail ≠ [])
      (hesc : ∃ kind, c'.escaped = some (kind, notConnected))

/-- A step that ends a message is a write completion that neither closes
nor fails. -/
theorem of_finishes (h : finishes c a = true) :
    isWrite a = true ∧ closes c a = false ∧ writeFails a = false := by
  cases a with
  | writeDone op ok now =>
      cases ok with
      | true => exact ⟨rfl, Bool.and_false _, rfl⟩
      | false => cases op <;> cases h
  | _ => cases h

theorem finishes_eq_false (h : isWrite a = false) :
    finishes c a = false := by
  cases a with
  | writeDone op ok now => cases h
  | _ => rfl

theorem writeFails_of_not_isWrite (h : isWrite a = false) :
    writeFails a = false := by
  cases a with
  | writeDone op ok now => cases h
  | _ => rfl

/-- The situation is unchanged if the sending side differs by messages
posted. -/
theorem Pump.of_posts {new : List SendCall} (hp : Pump host c done stage)
    (h : Posts host c c' new) : Pump host c' done stage := by
  refine ⟨?_, h.writes.trans hp.writes, ?_, h.count.trans hp.count, ?_, ?_,
    h.isConnecting.trans hp.isConnecting, h.connecting.trans hp.connecting⟩
  · rw [h.messagesOut, h.handed]
    exact hp.writing
  · rw [h.sent, List.map_append, hp.infos, h.messagesOut, h.queued]
    simp only [List.append_assoc]
  · intro call hcall
    rw [h.sent] at hcall
    rcases List.mem_append.mp hcall with hc | hc
    · exact hp.sentPrepared call hc
    · exact h.prepared call hc
  · rw [h.calls]
    exact hp.callsPrepared

/-- Posting a prepared message, connected or not. -/
theorem Pump.post {call : SendCall} (hp : Pump host c done stage)
    (hcall : Prepared host call) :
    Pump host (after (Connection.post call) c) done stage := by
  have hsent : (after (Connection.post call) c).sent = c.sent ++ [call] := by
    show (c.hist ++ [Obs.posted call]).filterMap Obs.call? = _
    rw [List.filterMap_append]
    rfl
  have hqueued : (after (Connection.post call) c).queued
      = c.queued ++ [call.info] := by
    show (c.posted ++ [Handler.queueMessage call.info]).filterMap _ = _
    rw [List.filterMap_append]
    rfl
  refine ⟨hp.writing, hp.writes, ?_, hp.count, ?_, hp.callsPrepared,
    hp.isConnecting, hp.connecting⟩
  · rw [hsent, hqueued, List.map_append, hp.infos]
    simp only [List.append_assoc]
    rfl
  · intro call' hmem
    rw [hsent] at hmem
    rcases List.mem_append.mp hmem with hc | hc
    · exact hp.sentPrepared call' hc
    · rw [List.mem_singleton.mp hc]
      exact hcall

/-- Only the calls differ. -/
theorem Pump.with_calls (hp : Pump host c done stage)
    (calls : List SendCall) (hcalls : ∀ call ∈ calls, Prepared host call) :
    Pump host { c with calls } done stage :=
  ⟨hp.writing, hp.writes, hp.infos, hp.count, hp.sentPrepared, hcalls,
    hp.isConnecting, hp.connecting⟩

theorem isConnected_of_isOpen (hp : Pump host c done stage) :
    c.isConnected = c.isOpen := by
  rw [isConnected, hp.isConnecting, Bool.not_false, Bool.and_true]

/-- A pump that moved is connected as long as its socket is open. -/
theorem isConnected_congr {done' : List PacketSendInfo} {stage' : Stage}
    (hp : Pump host c done stage) (hp' : Pump host c' done' stage')
    (hopen : c'.isOpen = c.isOpen) : c'.isConnected = c.isConnected := by
  rw [isConnected_of_isOpen hp', hopen, isConnected_of_isOpen hp]

/-- Once nothing is posted any more, the messages are those done and
those in the queue. -/
theorem Pump.sent_length (hp : Pump host c done stage)
    (hposted : c.posted = []) :
    c.sent.length = done.length + c.mMessagesOut.length := by
  have hinfos := congrArg List.length hp.infos
  rw [queued, hposted] at hinfos
  simpa using hinfos

/-- Closing the socket does not move the pump. -/
theorem Pump.close (hp : Pump host c done stage) :
    Pump host { c with isOpen := false } done stage :=
  ⟨hp.writing, hp.writes, hp.infos, hp.count, hp.sentPrepared,
    hp.callsPrepared, hp.isConnecting, hp.connecting⟩

/-- Taking a message off the posted handlers and putting it at the end
of the queue. -/
theorem queued_of_posted {handlers : List Handler}
    (h : c.posted = .queueMessage m :: handlers) :
    c.queued = m :: queued { c with posted := handlers } := by
  rw [queued, h]
  rfl

-- ======================================================= posted handlers

/-- A posted message reaches the queue. -/
theorem move_queueMessage {handlers : List Handler}
    (hp : Pump host c done stage) (hesc : c.escaped = none)
    (hposted : c.posted = .queueMessage m :: handlers) :
    Move host c .posted (runHandler .posted (queueMessage host m)
      { c with posted := handlers }) done stage := by
  have hqueued := queued_of_posted hposted
  have hway : c.onTheWay ≠ [] := by
    rw [onTheWay, hqueued]
    simp
  have hclose : closes c .posted = false := by
    simp [closes, hposted]
  have hinfos : c.sent.map (·.info) = done ++ (c.mMessagesOut ++ [m])
      ++ queued { c with posted := handlers } := by
    rw [hp.infos, hqueued]
    simp
  by_cases hq : c.mMessagesOut = []
  · have hidle : stage = .idle := hp.writing.queue_eq_nil_iff.mp hq
    have hwriting := hp.writing
    rw [hq, hidle] at hwriting
    rw [hq, List.nil_append] at hinfos
    have hwrites := hp.writes
    rw [hidle] at hwrites
    unfold runHandler
    rw [queueMessage_idle (by exact hq)]
    cases hc : c.isConnected with
    | true =>
        rw [writeHeader_connected (by exact hc) rfl]
        refine .start ⟨hwriting.start m, ?_, hinfos, hp.count,
          hp.sentPrepared, hp.callsPrepared, hp.isConnecting,
          hp.connecting⟩ hidle rfl hclose hc hesc
        show c.writes ++ [.header] = [.header]
        rw [hwrites]
        rfl
    | false =>
        rw [writeHeader_refused (by exact hc)]
        refine .refuse done ⟨hwriting.start_halt m, hwrites, hinfos,
          hp.count, hp.sentPrepared, hp.callsPrepared, hp.isConnecting,
          hp.connecting⟩ ?_ hc (.inl ⟨hidle, hway⟩) ⟨.posted, rfl⟩
        rw [hidle]
        exact Stage.noConfusion
  · unfold runHandler
    rw [queueMessage_busy (by exact hq)]
    refine .stay ⟨hp.writing.enqueue hq m, hp.writes, hinfos, hp.count,
      hp.sentPrepared, hp.callsPrepared, hp.isConnecting, hp.connecting⟩
      rfl hclose rfl rfl ?_ (.inl hesc)
    intro _ hnil
    exact absurd hnil hway

/-- The close that `Disconnect()` posts. -/
theorem move_close {handlers : List Handler}
    (hp : Pump host c done stage) (hesc : c.escaped = none)
    (hposted : c.posted = .close :: handlers) :
    Move host c .posted { c with posted := handlers, isOpen := false } done
      stage := by
  have hqueued : queued { c with posted := handlers } = c.queued := by
    show handlers.filterMap Handler.message? = c.posted.filterMap _
    rw [hposted]
    rfl
  have hinfos := hp.infos
  rw [← hqueued] at hinfos
  have hp' : Pump host { c with posted := handlers, isOpen := false } done
      stage :=
    ⟨hp.writing, hp.writes, hinfos, hp.count, hp.sentPrepared,
      hp.callsPrepared, hp.isConnecting, hp.connecting⟩
  have hway : onTheWay { c with posted := handlers, isOpen := false }
      = c.onTheWay := by
    rw [onTheWay, onTheWay, ← hqueued]
    rfl
  cases hopen : c.isOpen with
  | true =>
      refine .close hp' rfl ?_ rfl rfl rfl hway hesc
      simp [closes, hposted, hopen]
  | false =>
      refine .stay hp' rfl ?_ hopen.symm rfl ?_ (.inl hesc)
      · simp [closes, hopen]
      · intro _ hnil
        rw [hway]
        exact hnil

-- ===================================================== write completions

/-- The end of the front message. -/
theorem move_messageWritten (hp : Pump host c done stage)
    (hesc : c.escaped = none) (hq : c.mMessagesOut = m :: rest)
    (hlast : stage = .body ∨ stage = .head ∧ bodyBytes m = [])
    (hfin : finishes c a = true) :
    Move host c a (runHandler .write (messageWritten host now)
      { c with writes := [] }) done stage := by
  have hstage : stage = .head ∨ stage = .body := by
    rcases hlast with h | ⟨h, -⟩
    · exact .inr h
    · exact .inl h
  have hwriting := hp.writing
  rw [hq] at hwriting
  have hinfos : c.sent.map (·.info) = done ++ [m] ++ rest ++ c.queued := by
    rw [hp.infos, hq]
    simp
  have hcount : c.mSentPacketCount + 1 = (done ++ [m]).length := by
    rw [hp.count, List.length_append]
    rfl
  unfold runHandler
  rw [messageWritten_run (by exact hq)]
  cases rest with
  | nil =>
      rw [if_pos rfl]
      exact .last m ⟨hwriting.finished hlast, rfl, hinfos, hcount,
        hp.sentPrepared, hp.callsPrepared, hp.isConnecting, hp.connecting⟩
        hstage hfin (by rw [hq]; rfl) rfl rfl hesc
  | cons m' rest' =>
      rw [if_neg (List.cons_ne_nil m' rest')]
      cases hc : c.isConnected with
      | true =>
          rw [writeHeader_connected (by exact hc) rfl]
          exact .next m ⟨hwriting.finished_next hlast, rfl, hinfos, hcount,
            hp.sentPrepared, hp.callsPrepared, hp.isConnecting,
            hp.connecting⟩ hstage hfin
            ((isConnected_of_isOpen hp).symm.trans hc) hc hesc
      | false =>
          rw [writeHeader_refused (by exact hc)]
          refine .refuse (done ++ [m]) ⟨hwriting.finished_halt hlast, rfl,
            hinfos, hcount, hp.sentPrepared, hp.callsPrepared,
            hp.isConnecting, hp.connecting⟩ ?_ hc (.inr ⟨hfin, ?_⟩)
            ⟨.write, rfl⟩
          · rcases hstage with rfl | rfl
            · exact Stage.noConfusion
            · exact Stage.noConfusion
          · rw [hq]
            exact List.cons_ne_nil m' rest'

theorem outstanding_length (stage : Stage) :
    (outstanding stage).length ≤ 1 := by
  cases stage <;> decide

/-- The outstanding write tells the situation. -/
theorem outstanding_eq_header_iff :
    outstanding stage = [.header] ↔ stage = .head := by
  cases stage <;> decide

theorem outstanding_eq_body_iff :
    outstanding stage = [.body] ↔ stage = .body := by
  cases stage <;> decide

/-- Unless it has halted, the pump writes whenever there is a message. -/
theorem Pump.writes_iff (hp : Pump host c done stage)
    (hne : stage ≠ .halted) : c.writes ≠ [] ↔ c.mMessagesOut ≠ [] := by
  rw [hp.writes, ne_eq, ne_eq, hp.writing.queue_eq_nil_iff]
  cases stage with
  | halted => exact absurd rfl hne
  | idle | head | body => simp [outstanding]

/-- No write outlives its message. -/
theorem Pump.writes_eq {op : WriteOp} (hp : Pump host c done stage)
    (hmem : op ∈ c.writes) : c.writes = [op] := by
  rw [hp.writes] at hmem ⊢
  cases stage with
  | head => rw [List.mem_singleton.mp hmem]; rfl
  | body => rw [List.mem_singleton.mp hmem]; rfl
  | idle => cases hmem
  | halted => cases hmem

/-- A failed write halts the pump. -/
theorem Pump.writeFailed (hp : Pump host c done stage)
    (hwrites : c.writes ≠ []) :
    (stage = .head ∨ stage = .body)
      ∧ Pump host { c with writes := [], isOpen := false } done .halted := by
  constructor
  · rw [hp.writes] at hwrites
    cases stage with
    | head => exact .inl rfl
    | body => exact .inr rfl
    | idle | halted => exact absurd rfl hwrites
  · have hq : c.mMessagesOut ≠ [] := by
      intro h
      rw [hp.writes, hp.writing.queue_eq_nil_iff.mp h] at hwrites
      exact hwrites rfl
    exact ⟨hp.writing.halt hq, rfl, hp.infos, hp.count, hp.sentPrepared,
      hp.callsPrepared, hp.isConnecting, hp.connecting⟩

/-- The completion handler of a write that failed only closes. -/
theorem writeFailed_eq (op : WriteOp) (now : TimePoint) (c : Connection) :
    runHandler .write (writeCompleted host op false now) c
      = { c with isOpen := false } := by
  cases op with
  | header => rfl
  | body => rfl

/-- A write completion, whatever it reports. -/
theorem move_writeDone {op : WriteOp} {ok : Bool}
    (hp : Pump host c done stage) (hesc : c.escaped = none)
    (hmem : op ∈ c.writes) :
    Move host c (.writeDone op ok now)
      (runHandler .write (writeCompleted host op ok now)
        { c with writes := c.writes.erase op }) done stage := by
  have hone := hp.writes_eq hmem
  rw [hone, List.erase_cons_head]
  cases ok with
  | false =>
      rw [writeFailed_eq]
      obtain ⟨hstage, hp'⟩ := hp.writeFailed (by rw [hone]; simp)
      exact .fail hp' hstage rfl hesc
  | true =>
      have hne : c.mMessagesOut ≠ [] := by
        intro h
        have := hp.writes
        rw [hone, hp.writing.queue_eq_nil_iff.mp h] at this
        cases this
      obtain ⟨m, rest, hq⟩ := List.exists_cons_of_ne_nil hne
      have hstage := hp.writes
      rw [hone] at hstage
      cases op with
      | body =>
          have hbody : stage = .body := by
            cases stage with
            | body => rfl
            | head | idle | halted => cases hstage
          exact move_messageWritten hp hesc hq (.inl hbody) rfl
      | header =>
          have hhead : stage = .head := by
            cases stage with
            | head => rfl
            | body | idle | halted => cases hstage
          have hrun : (headerWritten host true now).run
              { c with writes := [] } = _ := headerWritten_run hq
          cases hempty : m.body.empty with
          | true =>
              rw [hempty, if_pos rfl] at hrun
              show Move host c _ (runHandler .write
                (headerWritten host true now) _) done stage
              rw [runHandler_congr hrun]
              refine move_messageWritten hp hesc hq
                (.inr ⟨hhead, PacketBuffer.empty_iff.mp hempty⟩) ?_
              rw [finishes, hq]
              exact hempty
          | false =>
              rw [hempty, if_neg Bool.false_ne_true] at hrun
              show Move host c _ (runHandler .write
                (headerWritten host true now) _) done stage
              unfold runHandler
              rw [hrun]
              have hwriting := hp.writing
              rw [hq, hhead] at hwriting
              refine .body ⟨?_, rfl, hp.infos, hp.count, hp.sentPrepared,
                hp.callsPrepared, hp.isConnecting, hp.connecting⟩ hhead
                (by rw [finishes, hq]; exact hempty) (Bool.and_false _) rfl
                hesc
              show Writing _ _ done c.mMessagesOut .body _
              rw [hq]
              exact hwriting.headDone

-- ============================================================= any event

/-- A read completion never moves the pump. -/
theorem move_readDone {op : ReadOp} {ok : Bool}
    (hp : Pump host c done stage)
    (h : step host ids (.readDone op ok now) c = some c') :
    Move host c (.readDone op ok now) c' done stage := by
  obtain ⟨hesc, hout⟩ := readDone_cases h
  rcases hout with ⟨hclose, hopen, hsame, hposts⟩ | ⟨hclose, new, hposts⟩
  · have hp' := hp.of_posts hposts
    have hqueued : c'.queued = c.queued := by
      have := hposts.queued
      rwa [List.map_nil, List.append_nil] at this
    refine .close ⟨hp'.writing, hp'.writes, hp'.infos, hp'.count,
      hp'.sentPrepared, hp'.callsPrepared, hp'.isConnecting, hp'.connecting⟩
      rfl hclose hopen hposts.messagesOut hposts.handed ?_
      (hsame.trans (of_step h).1)
    rw [onTheWay, onTheWay, hqueued, show c'.calls = c.calls from hposts.calls]
  · exact .stay (hp.of_posts hposts) rfl hclose hposts.isOpen hposts.handed
      hposts.onTheWay_eq_nil hesc

/-- The inversion lemma: what one event does to the pump. -/
theorem step_move (hp : Pump host c done stage)
    (h : step host ids a c = some c') : Move host c a c' done stage := by
  have hesc := (of_step h).1
  cases a with
  | send packet =>
      obtain ⟨call, -, hprep, hc, rfl⟩ := of_step_send h
      have hr := remembered_posts host ids c call.info
      refine .stay ((hp.of_posts hr).post hprep) rfl rfl hr.isOpen hr.handed ?_
        (.inl ((remembered_escaped call.info).trans hesc))
      intro hnot
      rw [hc] at hnot
      cases hnot
  | sendBegin packet =>
      obtain ⟨call, -, hprep, hc, rfl⟩ := of_step_sendBegin h
      have hr := remembered_posts host ids c call.info
      have hp' := hp.of_posts hr
      refine .stay (hp'.with_calls _ ?_) rfl rfl hr.isOpen hr.handed ?_
        (.inl ((remembered_escaped call.info).trans hesc))
      · intro call' hmem
        rcases List.mem_append.mp hmem with hold | hnew
        · exact hp'.callsPrepared call' hold
        · rw [List.mem_singleton.mp hnew]
          exact hprep
      · intro hnot
        rw [hc] at hnot
        cases hnot
  | sendEnd i =>
      obtain ⟨call, hcall, rfl⟩ := of_step_sendEnd h
      refine .stay ((hp.with_calls _ ?_).post ?_) rfl rfl rfl rfl ?_
        (.inl hesc)
      · intro call' hmem
        exact hp.callsPrepared call' (List.mem_of_mem_eraseIdx hmem)
      · exact hp.callsPrepared call (List.mem_of_getElem? hcall)
      · intro _ hnil
        rw [onTheWay, List.append_eq_nil_iff, List.map_eq_nil_iff] at hnil
        rw [hnil.2] at hcall
        cases hcall
  | disconnect =>
      rcases of_step_disconnect h with rfl | rfl
      · exact .stay hp rfl rfl rfl rfl (fun _ hnil => hnil) (.inl hesc)
      · have hqueued : queued { c with posted := c.posted ++ [.close] }
            = c.queued := by
          rw [queued, List.filterMap_append]
          exact List.append_nil _
        have hinfos := hp.infos
        rw [← hqueued] at hinfos
        refine .stay ⟨hp.writing, hp.writes, hinfos, hp.count,
          hp.sentPrepared, hp.callsPrepared, hp.isConnecting,
          hp.connecting⟩ rfl rfl rfl rfl ?_ (.inl hesc)
        intro _ hnil
        rw [onTheWay, hqueued]
        exact hnil
  | posted =>
      obtain ⟨handler, handlers, hposted, rfl⟩ := of_step_posted h
      cases handler with
      | queueMessage m => exact move_queueMessage hp hesc hposted
      | close => exact move_close hp hesc hposted
  | writeDone op ok now =>
      obtain ⟨hmem, rfl⟩ := of_step_writeDone h
      exact move_writeDone hp hesc hmem
  | readDone op ok now => exact move_readDone hp h
  | connectDone ok leftOpen =>
      have := (of_step_connectDone h).1
      rw [hp.connecting] at this
      cases this

/-- Whatever an event does, the pump is again in one of the four
situations. -/
theorem Move.pump (h : Move host c a c' done stage) :
    ∃ done' stage', Pump host c' done' stage' := by
  cases h with
  | stay hp => exact ⟨_, _, hp⟩
  | close hp => exact ⟨_, _, hp⟩
  | fail hp => exact ⟨_, _, hp⟩
  | start hp => exact ⟨_, _, hp⟩
  | body hp => exact ⟨_, _, hp⟩
  | last m hp => exact ⟨_, _, hp⟩
  | next m hp => exact ⟨_, _, hp⟩
  | refuse done' hp => exact ⟨_, _, hp⟩

-- ================================================================= runs

/-- A fresh connection's pump is idle. -/
theorem Fresh.pump (h : Fresh host c) : Pump host c [] .idle := by
  have hcalls : ∀ call ∈ c.calls, Prepared host call := by
    rw [h.calls]
    intro call hcall
    cases hcall
  refine ⟨?_, h.writes, ?_, h.count, h.sentPrepared, hcalls,
    h.isConnecting, h.connecting⟩
  · rw [h.messagesOut, h.handed]
    exact .idle []
  · rw [h.messagesOut, h.infos]
    rfl

/-- In every reachable state the pump is in one of its four
situations. -/
theorem pump_run {c₀ : Connection} {acts : List Action}
    (h₀ : Fresh host c₀)
    (hrun : Lts.run (step host ids) c₀ acts = some c) :
    ∃ done stage, Pump host c done stage := by
  refine Lts.run_invariant (fun c => ∃ done stage, Pump host c done stage)
    ?_ ?_ hrun
  · intro c a c' ⟨done, stage, hp⟩ hstep
    exact (step_move hp hstep).pump
  · exact ⟨[], .idle, h₀.pump⟩

/-- Once halted, the pump stays halted: no later event starts a
write. -/
theorem halted_run {c₀ : Connection} {acts : List Action}
    (h₀ : Pump host c₀ done .halted)
    (hrun : Lts.run (step host ids) c₀ acts = some c) :
    Pump host c done .halted ∧ c.handed = c₀.handed := by
  refine Lts.run_invariant
    (fun c => Pump host c done .halted ∧ c.handed = c₀.handed)
    ?_ ⟨h₀, rfl⟩ hrun
  intro c a c' ⟨hp, hhanded⟩ hstep
  cases step_move hp hstep with
  | stay hp' _ _ _ hsame => exact ⟨hp', hsame.trans hhanded⟩
  | close hp' _ _ _ _ hsame => exact ⟨hp', hsame.trans hhanded⟩
  | fail _ hbusy => rcases hbusy with h | h <;> cases h
  | start _ hidle => cases hidle
  | body _ hhead => cases hhead
  | last _ _ hbusy => rcases hbusy with h | h <;> cases h
  | next _ _ hbusy => rcases hbusy with h | h <;> cases h
  | refuse _ _ hne => exact absurd rfl hne

end Connection

end AWEnginePacket
