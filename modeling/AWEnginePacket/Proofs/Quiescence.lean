/-
A link that is left alone delivers all that has been sent.

"Left alone" is without new calls and without failures: posted handlers
run, writes, reads and the connect complete with success, `Send`s under
way reach their post, bytes arrive. Then every run is finite, with a
bound that the state it starts from tells (`effort_drops`), and where it
can go no further each end that is open and still reads has received all
its peer has sent (`comes_to_rest`), as long as the bodies sent fit the
size in the header. So nothing is stuck: not a message in a queue with no
write outstanding, not a byte in the network, not a reader in the middle
of a message.

# The measure

Every piece of work has a price, and what follows from it is paid for
in advance.

- A posted message costs a step, a place in the queue and a header's
  write; a header's write costs more than the body's that may follow.
- A byte that has arrived costs less than one that is sent, as it still
  has to arrive.
- A client may answer what it has read. So at a client's end reading
  costs as much as the answer does, half of it at the header's read
  (`Prices.body`).
- A `Send` under way costs its message.
-/
import AWEnginePacket.Lib.Potential
import AWEnginePacket.Proofs.Link
import AWEnginePacket.Proofs.Turn

namespace AWEnginePacket

open Endian (ByteOrder)
open Effect

namespace Connection

-- ========================================================== the measure

/-- What a byte costs that has arrived, what a body's read does, and what
a byte costs that is sent. -/
structure Prices where
  unread : Nat
  body : Nat
  sent : Nat

/-- A posted handler. -/
def Handler.price : Handler → Nat
  | .queueMessage _ => 5
  | .close => 1

/-- An outstanding write. -/
def WriteOp.price : WriteOp → Nat
  | .header => 2
  | .body => 1

/-- An outstanding read. -/
def ReadOp.price (p : Prices) : ReadOp → Nat
  | .header => 0
  | .body _ => p.body

/-- A message whose `Send` has yet to post it. -/
def messagePrice (p : Prices) (length : Nat) : Nat := 6 + p.sent * (4 + length)

/-- A connect that has not completed, with its `Init` packet. -/
def connectPrice (p : Prices) (c : Connection) : Nat :=
  if c.connecting then
    1 + (c.mInitPacket.map fun packet =>
      messagePrice p (bodyOf packet).length).getD 0
  else 0

/-- The bytes of all messages sent. -/
def sentLength (c : Connection) : Nat :=
  (c.sent.map fun call => 4 + (bodyBytes call.info).length).sum

/-- The queue and the outstanding write. -/
def lineEffort (c : Connection) : Nat :=
  2 * c.mMessagesOut.length + (c.writes.map WriteOp.price).sum

/-- What has been posted and what is being sent. -/
def sendEffort (p : Prices) (c : Connection) : Nat :=
  (c.posted.map Handler.price).sum
    + (c.calls.map fun call => messagePrice p (bodyBytes call.info).length).sum
    + p.sent * c.sentLength

/-- What is yet to be read. -/
def readEffort (p : Prices) (c : Connection) : Nat :=
  (c.reads.map (ReadOp.price p)).sum + p.unread * c.incoming.length

/-- All of it; the bytes sent count until they have arrived. -/
def effort (p : Prices) (c : Connection) : Nat :=
  lineEffort c + sendEffort p c + readEffort p c + connectPrice p c

/-- A step that is neither a call nor a failure. -/
def Onward : Action → Prop
  | .sendEnd _ => True
  | .posted => True
  | .writeDone _ ok _ => ok = true
  | .readDone _ ok _ => ok = true
  | .connectDone ok _ => ok = true
  | .send _ | .sendBegin _ | .disconnect => False

instance (a : Action) : Decidable (Onward a) := by
  cases a <;> unfold Onward <;> infer_instance

variable {host : ByteOrder} {ids : PacketIDs} {c c' : Connection}
  {p : Prices} {m : PacketSendInfo} {rest : List PacketSendInfo}
  {new : List SendCall} {now : TimePoint} {stream left : List UInt8}
  {fs : List WireFrame} {d : PacketDirection} {heard : List UInt8}
  {a : Action}

-- ================================================== the per-step deltas

theorem sum_price_posted (new : List SendCall) :
    ((new.map fun call => Handler.queueMessage call.info).map
      Handler.price).sum = 5 * new.length := by
  induction new with
  | nil => rfl
  | cons call new ih =>
      rw [List.map_cons, List.map_cons, List.sum_cons, ih, List.length_cons]
      simp only [Handler.price]
      omega

/-- What `Send` posts has to be queued and written, and its bytes to
arrive. -/
theorem sendEffort_posts (h : Posts host c c' new) :
    sendEffort p c' = sendEffort p c + 5 * new.length
      + p.sent * (new.map fun call => 4 + (bodyBytes call.info).length).sum := by
  have hlength : sentLength c' = sentLength c
      + (new.map fun call => 4 + (bodyBytes call.info).length).sum := by
    rw [sentLength, sentLength, h.sent, List.map_append, List.sum_append]
  rw [sendEffort, sendEffort, h.posted, h.calls, hlength, List.map_append,
    List.sum_append, sum_price_posted, Nat.mul_add]
  omega

theorem lineEffort_posts (h : Posts host c c' new) :
    lineEffort c' = lineEffort c := by
  rw [lineEffort, lineEffort, h.messagesOut, h.writes]

/-- `WriteHeader()` begins one write or none. -/
theorem lineEffort_writeHeader (kind : HandlerKind)
    (hq : c.mMessagesOut = m :: rest) :
    lineEffort (runHandler kind (writeHeader host) c) ≤ lineEffort c + 2 := by
  cases hc : c.isConnected with
  | true =>
      rw [runHandler, writeHeader_connected hc hq]
      simp only [lineEffort, List.map_append, List.sum_append, List.map_cons,
        List.map_nil, List.sum_cons, List.sum_nil, WriteOp.price]
      omega
  | false =>
      rw [runHandler, writeHeader_refused hc]
      exact Nat.le_add_right _ _

/-- A posted handler has paid for what it does to the queue. -/
theorem lineEffort_runPosted (handler : Handler) (c : Connection) :
    lineEffort (runHandler .posted (runPosted host handler) c) + 1
      ≤ lineEffort c + Handler.price handler := by
  cases handler with
  | close => exact Nat.le_refl _
  | queueMessage m =>
      show lineEffort (runHandler .posted (queueMessage host m) c) + 1
        ≤ lineEffort c + 5
      by_cases hq : c.mMessagesOut = []
      · rw [runHandler_congr (queueMessage_idle hq)]
        have hle := @lineEffort_writeHeader host
          { c with mMessagesOut := [m] } m [] .posted rfl
        have hone : lineEffort { c with mMessagesOut := [m] }
            = lineEffort c + 2 := by
          simp only [lineEffort, hq, List.length_cons, List.length_nil]
          omega
        omega
      · rw [runHandler, queueMessage_busy hq]
        simp only [lineEffort, List.length_append, List.length_cons,
          List.length_nil]
        omega

/-- The end of a message pays for the next one's header. -/
theorem lineEffort_messageWritten (hq : c.mMessagesOut = m :: rest) :
    lineEffort (runHandler .write (messageWritten host now) c)
      ≤ lineEffort c := by
  have hdone : lineEffort (messageDone c rest now) + 2 = lineEffort c := by
    simp only [lineEffort, messageDone, hq, List.length_cons]
    omega
  rw [runHandler, messageWritten_run hq]
  cases rest with
  | nil =>
      rw [if_pos rfl]
      show lineEffort (messageDone c [] now) ≤ _
      omega
  | cons m' rest' =>
      rw [if_neg (List.cons_ne_nil m' rest')]
      show lineEffort (runHandler .write (writeHeader host)
        (messageDone c (m' :: rest') now)) ≤ _
      have hle := @lineEffort_writeHeader host
        (messageDone c (m' :: rest') now) m' rest' .write rfl
      omega

/-- A write that completes costs less than it did. -/
theorem lineEffort_writeDone {op : WriteOp} {done : List PacketSendInfo}
    {stage : Serial.Stage} (hp : Pump host c done stage)
    (hmem : op ∈ c.writes) :
    lineEffort (runHandler .write (writeCompleted host op true now)
      { c with writes := c.writes.erase op }) < lineEffort c := by
  have hone := hp.writes_eq hmem
  have hne : c.mMessagesOut ≠ [] := by
    intro hnil
    have hwrites := hp.writes
    rw [hone, hp.writing.queue_eq_nil_iff.mp hnil] at hwrites
    cases hwrites
  obtain ⟨m, rest, hq⟩ := List.exists_cons_of_ne_nil hne
  rw [hone, List.erase_cons_head]
  have hfinished : lineEffort (runHandler .write (messageWritten host now)
      { c with writes := [] }) < lineEffort c := by
    have hle := @lineEffort_messageWritten host { c with writes := [] } m rest
      now hq
    have hlt : lineEffort { c with writes := [] } < lineEffort c := by
      simp only [lineEffort, hone, List.map_nil, List.map_cons, List.sum_cons,
        List.sum_nil]
      cases op <;> simp [WriteOp.price]
    omega
  cases op with
  | body => exact hfinished
  | header =>
      have hrun : (headerWritten host true now).run { c with writes := [] } = _ :=
        headerWritten_run hq
      show lineEffort (runHandler .write (headerWritten host true now) _) < _
      cases hempty : m.body.empty with
      | true =>
          rw [hempty, if_pos rfl] at hrun
          rw [runHandler_congr hrun]
          exact hfinished
      | false =>
          rw [hempty, if_neg Bool.false_ne_true] at hrun
          rw [runHandler, hrun]
          simp [lineEffort, hone, WriteOp.price]

/-- What the write handlers leave alone. -/
theorem effort_of_apart (h : c'.apart = c.apart) :
    effort p c' + lineEffort c = effort p c + lineEffort c' := by
  have hsend := of_apart (sendEffort p) (fun _ => rfl) h
  have hread := of_apart (readEffort p) (fun _ => rfl) h
  have hconnect := of_apart (connectPrice p) (fun _ => rfl) h
  rw [effort, effort, hsend, hread, hconnect]
  omega

theorem effort_posted (h : step host ids .posted c = some c') :
    effort p c' < effort p c := by
  obtain ⟨handler, rest, hposted, rfl⟩ := of_step_posted h
  have hline := @lineEffort_runPosted host handler { c with posted := rest }
  have hapart := (@runHandler_apart .posted _ (@runPosted_keeps host handler)
    { c with posted := rest }).1
  have hrest := @effort_of_apart _ _ p hapart
  have hpaid : effort p c = effort p { c with posted := rest }
      + Handler.price handler := by
    have hsend : sendEffort p c = sendEffort p { c with posted := rest }
        + Handler.price handler := by
      show (c.posted.map Handler.price).sum + (c.calls.map _).sum
          + p.sent * sentLength c
        = (rest.map Handler.price).sum + (c.calls.map _).sum
          + p.sent * sentLength c + Handler.price handler
      rw [hposted, List.map_cons, List.sum_cons]
      omega
    rw [effort, hsend, effort]
    show _ = lineEffort c + _ + readEffort p c + connectPrice p c + _
    omega
  omega

theorem effort_writeDone {op : WriteOp} {done : List PacketSendInfo}
    {stage : Serial.Stage} (hp : Pump host c done stage)
    (h : step host ids (.writeDone op true now) c = some c') :
    effort p c' < effort p c := by
  obtain ⟨hmem, rfl⟩ := of_step_writeDone h
  have hline := @lineEffort_writeDone host c now op done stage hp hmem
  have hapart := (@runHandler_apart .write _
    (@writeCompleted_keeps host op true now)
    { c with writes := c.writes.erase op }).1
  have hrest := @effort_of_apart c _ p hapart
  omega

/-- A `Send` under way has paid for its message. -/
theorem effort_sendEnd {i : Nat} (h : step host ids (.sendEnd i) c = some c') :
    effort p c' < effort p c := by
  obtain ⟨call, hcall, rfl⟩ := of_step_sendEnd h
  obtain ⟨hi, hget⟩ := List.getElem?_eq_some_iff.mp hcall
  have hcalls := ((List.getElem_cons_eraseIdx_perm hi).map
    fun call => messagePrice p (bodyBytes call.info).length).sum_eq
  rw [hget, List.map_cons, List.sum_cons, messagePrice] at hcalls
  have hlength : sentLength (after (post call)
      { c with calls := c.calls.eraseIdx i })
      = sentLength c + (4 + (bodyBytes call.info).length) := by
    rw [sentLength, post_sent, List.map_append, List.sum_append]
    rfl
  have hsend : sendEffort p (after (post call)
      { c with calls := c.calls.eraseIdx i }) + 1 = sendEffort p c := by
    rw [sendEffort, hlength, Nat.mul_add]
    show ((c.posted ++ [Handler.queueMessage call.info]).map
      Handler.price).sum
      + ((c.calls.eraseIdx i).map _).sum + _ + 1 = _
    rw [List.map_append, List.sum_append]
    show _ + 5 + _ + _ + 1 = sendEffort p c
    rw [sendEffort]
    omega
  show lineEffort c + _ + readEffort p c + connectPrice p c < _
  rw [effort]
  omega

/-- After a message the next header is read, or nothing. -/
theorem readEffort_outcome {f : WireFrame} (ho : Outcome ids f c c')
    (hreads : c.reads = []) :
    readEffort p c' = p.unread * c.incoming.length := by
  have hnone {c₁ : Connection} (hside : c₁.readSide = c.readSide) :
      readEffort p c₁ = p.unread * c.incoming.length := by
    simp only [readSide, Prod.mk.injEq] at hside
    rw [readEffort, hside.1, hside.2.1, hreads]
    exact Nat.zero_add _
  cases ho with
  | delivered hv h =>
      have hside := h.1
      simp only [readSide, pushed, Prod.mk.injEq] at hside
      rw [readEffort, hside.1, hside.2.1, hreads]
      exact Nat.zero_add _
  | closed hv h =>
      rw [h]
      exact hnone rfl
  | thrown e c₁ hv h hc' =>
      rw [hc']
      exact hnone h.1
  | stalled hv h => exact hnone h.1

/-- A read that completes frees what it has been paid for. -/
theorem readEffort_readDone {op : ReadOp} {gain : Nat}
    (hgain : p.body + gain ≤ 4 * p.unread) (hbody : gain ≤ p.body)
    (hr : Reader ids d stream c fs left)
    (hs : step host ids (.readDone op true now) c = some c') :
    readEffort p c' + gain ≤ readEffort p c := by
  have hesc := (of_step hs).1
  have hmem := (of_step_readDone hs).1
  have hlen := wants_le_of_readDone hs
  cases hr.awaiting with
  | header hreads hwip =>
      rw [hreads, List.mem_singleton] at hmem
      subst hmem
      have hlen : 4 ≤ c.incoming.length := hlen
      have hbefore : readEffort p c = p.unread * c.incoming.length := by
        rw [readEffort, hreads]
        exact Nat.zero_add _
      have hdrop : p.unread * (c.incoming.drop 4).length + 4 * p.unread
          = p.unread * c.incoming.length := by
        rw [List.length_drop, Nat.mul_sub, Nat.mul_comm 4,
          Nat.sub_add_cancel (Nat.mul_le_mul_left _ hlen)]
      by_cases hsize : (decodeHeader (c.incoming.take 4)).size = 0
      · obtain ⟨c₁, hstep, ho⟩ :=
          @outcome_headerRead host ids c now _ hesc hreads hwip hlen hsize
        rw [hstep, Option.some.injEq] at hs
        subst hs
        have hnone : (headerArrived c).reads = [] := by
          rw [headerArrived, hreads]
          rfl
        have hafter := @readEffort_outcome _ _ _ p _ ho hnone
        have hafter : readEffort p c₁
            = p.unread * (c.incoming.drop 4).length := hafter
        omega
      · obtain ⟨bs, hbs, hstep⟩ :=
          @awaiting_headerRead host ids c now _ hesc hreads hwip hlen hsize
        rw [hstep, Option.some.injEq] at hs
        subst hs
        show p.body + 0 + p.unread * (c.incoming.drop 4).length + gain ≤ _
        omega
  | body hb bs hblen hsize hheader hreads hwip hbs =>
      rw [hreads, List.mem_singleton] at hmem
      subst hmem
      obtain ⟨c₁, hstep, ho⟩ := @outcome_bodyRead host ids c now _ _ _ hesc
        hreads hheader hsize rfl hwip hbs hlen
      rw [hstep, Option.some.injEq] at hs
      subst hs
      have hnone : (bodyArrived (decodeHeader hb).size.toNat c).reads = [] := by
        rw [bodyArrived, hreads, List.erase_cons_head]
      have hafter := @readEffort_outcome _ _ _ p _ ho hnone
      have hafter : readEffort p c₁ = p.unread
          * (c.incoming.drop (decodeHeader hb).size.toNat).length := hafter
      have hbefore : readEffort p c
          = p.body + p.unread * c.incoming.length := by
        rw [readEffort, hreads]
        rfl
      have hdrop : p.unread
          * (c.incoming.drop (decodeHeader hb).size.toNat).length
          ≤ p.unread * c.incoming.length := by
        rw [List.length_drop]
        exact Nat.mul_le_mul_left _ (Nat.sub_le _ _)
      omega
  | done _ hreads =>
      rw [hreads] at hmem
      cases hmem

/-- What a read's completion posts, and what that costs. -/
theorem sendEffort_readDone {op : ReadOp} {ok : Bool}
    (hs : step host ids (.readDone op ok now) c = some c') :
    ∃ new, c'.sent = c.sent ++ new ∧ lineEffort c' = lineEffort c
      ∧ sendEffort p c' = sendEffort p c + 5 * new.length
        + p.sent
          * (new.map fun call => 4 + (bodyBytes call.info).length).sum := by
  obtain ⟨-, ⟨-, -, -, hposts⟩ | ⟨-, new, hposts⟩⟩ := readDone_cases hs
  · have hsend := @sendEffort_posts _ _ _ p _ hposts
    have hline := lineEffort_posts hposts
    exact ⟨[], hposts.sent, hline, hsend⟩
  · exact ⟨new, hposts.sent, lineEffort_posts hposts, sendEffort_posts hposts⟩

/-- A read that completes costs less than it did, where what it answers
is paid for. -/
theorem effort_readDone {op : ReadOp} {gain : Nat}
    (hgain : p.body + gain ≤ 4 * p.unread) (hbody : gain ≤ p.body)
    (hr : Reader ids d stream c fs left)
    (hs : step host ids (.readDone op true now) c = some c')
    (hcost : ∀ new, c'.sent = c.sent ++ new → 5 * new.length + p.sent
      * (new.map fun call => 4 + (bodyBytes call.info).length).sum < gain) :
    effort p c' < effort p c := by
  obtain ⟨new, hsent, hline, hsend⟩ := @sendEffort_readDone _ _ _ _ p _ _ _ hs
  have hread := readEffort_readDone hgain hbody hr hs
  have hnew := hcost new hsent
  obtain ⟨fs', left', hr', -⟩ := reader_step hr hs
  have hconnect {c₁ : Connection} (h : c₁.connecting = false) :
      connectPrice p c₁ = 0 := by
    rw [connectPrice, h]
    exact if_neg Bool.false_ne_true
  rw [effort, effort, hconnect hr.connecting, hconnect hr'.connecting]
  omega

/-- The connect has paid for the `Init` packet. -/
theorem effort_connectDone {self : Nat} {initPacket : Option IPacket}
    {start : TimePoint} {leftOpen : Bool}
    (hs : step host ids (.connectDone true leftOpen)
      (after (connectToServer initPacket)
        (create self .toServer false heard start)) = some c') :
    effort p c' < effort p (after (connectToServer initPacket)
      (create self .toServer false heard start)) := by
  have hbefore : effort p (after (connectToServer initPacket)
      (create self .toServer false heard start))
        = p.unread * heard.length + (1 + (initPacket.map fun packet =>
          messagePrice p (bodyOf packet).length).getD 0) := by
    show 0 + (0 + 0 + p.sent * 0) + (0 + p.unread * heard.length) + _ = _
    rw [Nat.mul_zero]
    simp only [Nat.zero_add]
    rfl
  -- once it is connected, with what it has posted
  have hafter {c₁ : Connection} (hline : lineEffort c₁ = 0)
      (hreads : (c₁.reads.map (ReadOp.price p)).sum = 0)
      (hin : c₁.incoming = heard) (hconn : c₁.connecting = false) :
      effort p c₁ = sendEffort p c₁ + p.unread * heard.length := by
    rw [effort, hline, readEffort, hreads, hin, connectPrice, hconn]
    simp
  have hnone : sendEffort p (linked self heard start initPacket) = 0 := by
    show 0 + 0 + p.sent * 0 = 0
    omega
  rw [hbefore]
  by_cases hesc : c'.escaped = none
  · obtain ⟨c₁, rfl, ⟨rfl, rfl⟩ | ⟨packet, rfl, hsend⟩⟩ :=
      of_connectToServer hs hesc
    · rw [hafter rfl rfl rfl rfl]
      show sendEffort p (linked self heard start none) + _ < _
      rw [hnone]
      omega
    · obtain ⟨call, rfl, hposts, -⟩ := of_send_ok_posts hsend
      have hside := ((send_keeps_reading call.packet).of_ok hsend).1
      simp only [readSide, Prod.mk.injEq] at hside
      have hcall := hposts.prepared call (List.mem_singleton_self call)
      have hreads : ((c₁.reads ++ [ReadOp.header]).map
          (ReadOp.price p)).sum = 0 := by
        rw [hside.1]
        rfl
      rw [@hafter { c₁ with reads := c₁.reads ++ [.header] }
        (lineEffort_posts hposts) hreads hside.2.1 hposts.connecting]
      show sendEffort p c₁ + _ < _
      rw [sendEffort_posts hposts, hnone, Option.map_some, Option.getD_some,
        messagePrice, hcall.bodyOf]
      simp only [List.map_cons, List.map_nil, List.sum_cons, List.sum_nil,
        List.length_cons, List.length_nil, Nat.add_zero]
      omega
  · obtain ⟨e, rfl⟩ := connect_thrown hs hesc
    rw [hafter rfl rfl rfl rfl]
    show sendEffort p (linked self heard start initPacket) + _ < _
    rw [hnone]
    omega

/-- Every onward step of a connected end lowers its effort, where what a
read answers is paid for. -/
theorem effort_step {gain : Nat} {done : List PacketSendInfo}
    {stage : Serial.Stage} (hgain : p.body + gain ≤ 4 * p.unread)
    (hbody : gain ≤ p.body) (hr : Reader ids d stream c fs left)
    (hp : Pump host c done stage) (ha : Onward a)
    (hs : step host ids a c = some c')
    (hcost : ∀ op now, a = .readDone op true now →
      ∀ new, c'.sent = c.sent ++ new → 5 * new.length + p.sent
        * (new.map fun call => 4 + (bodyBytes call.info).length).sum
          < gain) : effort p c' < effort p c := by
  cases a with
  | sendEnd i => exact effort_sendEnd hs
  | posted => exact effort_posted hs
  | writeDone op ok now =>
      obtain rfl : ok = true := ha
      exact effort_writeDone hp hs
  | readDone op ok now =>
      obtain rfl : ok = true := ha
      exact effort_readDone hgain hbody hr hs (hcost op now rfl)
  | connectDone ok leftOpen =>
      have hconn := (of_step_connectDone hs).1
      rw [hr.connecting] at hconn
      cases hconn
  | send packet => cases ha
  | sendBegin packet => cases ha
  | disconnect => cases ha

-- ============================================================ both ends

/-- A server's end answers nothing. -/
def serverPrices : Prices := { unread := 1, body := 1, sent := 16 }

/-- A client's end answers with twelve bytes. -/
def clientPrices : Prices := { unread := 15, body := 30, sent := 2 }

theorem Phase.effort_server (h : Phase host ids heard .toClient c)
    (ha : Onward a) (hs : step host ids a c = some c') :
    effort serverPrices c' < effort serverPrices c := by
  cases h with
  | talking _ _ hr hp =>
      obtain ⟨fs, left, hr⟩ := hr
      obtain ⟨done, stage, hp⟩ := hp
      refine @effort_step _ _ _ _ serverPrices _ _ _ _ _ 1 _ _ (by decide)
        (by decide) hr hp ha hs fun op now hop new hsent => ?_
      subst hop
      have hvoice := congrArg Prod.fst (handler_silent hr rfl hs)
      have hlength := congrArg List.length hvoice
      rw [voice, voice, List.length_map, List.length_map, hsent,
        List.length_append] at hlength
      obtain rfl := List.length_eq_zero_iff.mp
        (by omega : new.length = 0)
      exact Nat.zero_lt_one

theorem Phase.effort_client (h : Phase host ids heard .toServer c)
    (ha : Onward a) (hs : step host ids a c = some c') :
    effort clientPrices c' < effort clientPrices c := by
  cases h with
  | dialing self initPacket now =>
      cases a with
      | connectDone ok leftOpen =>
          obtain rfl : ok = true := ha
          exact effort_connectDone hs
      | sendEnd i =>
          obtain ⟨call, hcall, -⟩ := of_step_sendEnd hs
          cases hcall
      | posted =>
          obtain ⟨handler, rest, hposted, -⟩ := of_step_posted hs
          cases hposted
      | writeDone op ok t => cases (of_step_writeDone hs).1
      | readDone op ok t => cases (of_step_readDone hs).1
      | send packet => cases ha
      | sendBegin packet => cases ha
      | disconnect => cases ha
  | talking _ _ hr hp =>
      obtain ⟨fs, left, hr⟩ := hr
      obtain ⟨done, stage, hp⟩ := hp
      refine @effort_step _ _ _ _ clientPrices _ _ _ _ _ 30 _ _ (by decide)
        (by decide) hr hp ha hs fun op now hop new hsent => ?_
      subst hop
      -- nothing, or the answer to a KeepAlive
      cases files_readDone hr.direction hs with
      | nothing hsame =>
          rw [hsame, List.self_eq_append_right] at hsent
          subst hsent
          exact Nat.zero_lt_succ _
      | message m answer hsame hmsgs hcalls hanswer =>
          obtain rfl := List.append_cancel_left (hsame.symm.trans hsent)
          cases hanswer with
          | none hid => exact Nat.zero_lt_succ _
          | echo call hid hsize hprep hcall =>
              have hlength : (bodyBytes call.info).length = 8 := by
                rw [← hprep.bodyOf, hcall, Session.ping_bodyOf,
                  Endian.leBytes_length]
              simp only [List.map_cons, List.map_nil, List.sum_cons,
                List.sum_nil, List.length_cons, List.length_nil, hlength]
              decide
  | failed c hesc =>
      rw [(of_step hs).1] at hesc
      cases hesc

/-- The bytes handed over are some of those sent. -/
theorem Phase.handed_le (h : Phase host ids heard d c) :
    c.handed.length ≤ sentLength c := by
  have hle := h.said.1.length_le
  have hwire : (wire host (c.sent.map (·.info))).length = sentLength c := by
    rw [wire, Serial.wire, Framing.Format.sent, sentLength,
      List.length_flatMap, List.map_map]
    refine congrArg List.sum (List.map_congr_left fun call _ => ?_)
    show (headerBytes host call.info ++ bodyBytes call.info).length = _
    rw [List.length_append, headerBytes_length]
  rwa [hwire] at hle

/-- Bytes that arrive have to be read. -/
theorem effort_hear (p : Prices) (c : Connection) (bytes : List UInt8) :
    effort p { c with incoming := c.incoming ++ bytes }
      = effort p c + p.unread * bytes.length := by
  have hread : readEffort p { c with incoming := c.incoming ++ bytes }
      = readEffort p c + p.unread * bytes.length := by
    show _ + p.unread * (c.incoming ++ bytes).length
      = (c.reads.map (ReadOp.price p)).sum + _ + _
    rw [List.length_append, Nat.mul_add]
    exact (Nat.add_assoc _ _ _).symm
  rw [effort, hread, effort]
  show lineEffort c + sendEffort p c + _ + connectPrice p c = _
  omega

theorem sent_le_effort (p : Prices) (c : Connection) :
    p.sent * c.sentLength ≤ effort p c := by
  rw [effort, sendEffort]
  omega

-- ============================================================== at rest

/-- An open connection with a message in its queue is writing. -/
def Busy (c : Connection) : Prop :=
  c.isOpen = true → c.escaped = none → c.mMessagesOut ≠ [] → c.writes ≠ []

/-- The pump halts only as the connection is given up. -/
theorem busy_step {done : List PacketSendInfo} {stage : Serial.Stage}
    (hp : Pump host c done stage) (hb : Busy c)
    (hs : step host ids a c = some c') : Busy c' := by
  intro hopen hesc hout
  cases step_move hp hs with
  | stay hp' hkind hclose hsame =>
      refine (hp'.writes_iff ?_).mpr hout
      rintro rfl
      have hq : c.mMessagesOut ≠ [] := by
        rw [ne_eq, hp.writing.queue_eq_nil_iff]
        exact Serial.Stage.noConfusion
      exact hb (hsame.symm.trans hopen) (of_step hs).1 hq hp.writes
  | close hp' hkind hclose hclosed =>
      rw [hclosed] at hopen
      cases hopen
  | fail hp' hstage hfail =>
      cases a with
      | writeDone op ok now =>
          obtain rfl : ok = false := by simpa [writeFails] using hfail
          obtain ⟨-, rfl⟩ := of_step_writeDone hs
          rw [writeFailed_eq] at hopen
          cases hopen
      | _ => cases hfail
  | start hp' =>
      exact (hp'.writes_iff Serial.Stage.noConfusion).mpr hout
  | body hp' =>
      exact (hp'.writes_iff Serial.Stage.noConfusion).mpr hout
  | last m hp' =>
      exact (hp'.writes_iff Serial.Stage.noConfusion).mpr hout
  | next m hp' =>
      exact (hp'.writes_iff Serial.Stage.noConfusion).mpr hout
  | refuse done' hp' hstage hconn hwhy hthrown =>
      obtain ⟨kind, hthrown⟩ := hthrown
      rw [hthrown] at hesc
      cases hesc

theorem Phase.busy (h : Phase host ids heard d c) (hb : Busy c)
    (ha : Link.connectFails a = false) (hs : step host ids a c = some c') :
    Busy c' := by
  cases h with
  | dialing self initPacket now =>
      rcases dialing_event hs with hconn | rfl
      · cases a with
        | connectDone ok leftOpen =>
            obtain rfl : ok = true := by simpa [Link.connectFails] using ha
            intro _ hesc hout
            exact absurd (fresh_connectToServer hs hesc).messagesOut hout
        | _ => cases hconn
      · exact hb
  | talking _ _ hr hp =>
      obtain ⟨done, stage, hp⟩ := hp
      exact busy_step hp hb hs
  | failed c hesc =>
      rw [(of_step hs).1] at hesc
      cases hesc

/-- A posted handler can run. -/
theorem can_run (hesc : c.escaped = none) (hposted : c.posted ≠ []) :
    ∃ c', step host ids .posted c = some c' := by
  obtain ⟨handler, rest, h⟩ := List.exists_cons_of_ne_nil hposted
  rw [step_eq_event hesc]
  simp only [event, h]
  exact ⟨_, rfl⟩

/-- An outstanding write can complete. -/
theorem can_write {op : WriteOp} (hesc : c.escaped = none)
    (hmem : op ∈ c.writes) :
    ∃ c', step host ids (.writeDone op true 0) c = some c' := by
  rw [step_eq_event hesc]
  simp only [event, if_pos hmem]
  exact ⟨_, rfl⟩

/-- An outstanding read can complete once its bytes are there. -/
theorem can_read {op : ReadOp} (hesc : c.escaped = none)
    (hmem : op ∈ c.reads) (hlen : ReadOp.wants op ≤ c.incoming.length) :
    ∃ c', step host ids (.readDone op true 0) c = some c' := by
  cases op with
  | header => exact ⟨_, step_headerRead hesc hmem hlen⟩
  | body n => exact ⟨_, step_bodyRead hesc hmem hlen⟩

theorem Phase.reading (h : Phase host ids heard d c) (hreads : c.reads ≠ []) :
    ∃ fs left, Reader ids d heard c fs left := by
  cases h with
  | dialing self initPacket now => exact absurd rfl hreads
  | talking _ _ hr => exact hr
  | failed c hesc hnone => exact absurd hnone hreads

/-- Where no read can complete, what is left is less than a frame. -/
theorem Reader.next_none (hr : Reader ids d stream c fs left)
    (hesc : c.escaped = none) (hreads : c.reads ≠ [])
    (hstuck : ∀ op c', step host ids (.readDone op true 0) c ≠ some c') :
    frames.next left = none
      ∧ (left = [] → c.reads = [.header] ∧ c.incoming = []) := by
  have hshort {op : ReadOp} (hmem : op ∈ c.reads) :
      c.incoming.length < ReadOp.wants op := by
    by_contra hle
    obtain ⟨c', hs⟩ := @can_read host ids c op hesc hmem (Nat.not_lt.mp hle)
    exact hstuck op c' hs
  cases hr.awaiting with
  | header hawait hbody =>
      have hlt : c.incoming.length < 4 := @hshort .header (by simp [hawait])
      exact ⟨if_pos hlt, fun hnil => ⟨hawait, hnil⟩⟩
  | body hb bs hlen hsize hheader hawait hbody hbs =>
      have hlt : c.incoming.length < (decodeHeader hb).size.toNat :=
        @hshort (.body _) (by simp [hawait])
      refine ⟨?_, fun hnil => ?_⟩
      · have hlong : ¬ (hb ++ c.incoming).length < 4 := by
          rw [List.length_append]
          omega
        have htake : (hb ++ c.incoming).take 4 = hb := List.take_left' hlen
        have hdrop : (hb ++ c.incoming).drop 4 = c.incoming :=
          List.drop_left' hlen
        rw [Framing.Format.next]
        show (if (hb ++ c.incoming).length < 4 then none else _) = none
        rw [if_neg hlong]
        show (if ((hb ++ c.incoming).drop 4).length
          < (decodeHeader ((hb ++ c.incoming).take 4)).size.toNat then none
          else _) = none
        rw [htake, hdrop, if_pos hlt]
      · rw [List.append_eq_nil_iff] at hnil
        rw [hnil.1] at hlen
        cases hlen
  | done _ hnone => exact absurd hnone hreads

end Connection

namespace Link

open Connection

variable {host : Side → ByteOrder} {ids : Side → PacketIDs} {l l' : Link}
  {side : Side} {self : Side → Nat} {initPacket : Option IPacket}
  {now : Side → TimePoint} {acts : List Action} {a : Action}

-- ============================================================= the bound

/-- What things cost at an end. -/
def prices : Side → Prices
  | .server => serverPrices
  | .client => clientPrices

/-- An end's effort; what has arrived at the other is done with. -/
def sideEffort (l : Link) (side : Side) : Nat :=
  (l.conn side).effort (prices side)
    - (prices side).sent * l.arrived side.peer

/-- What is left to do. -/
def effort (l : Link) : Nat := l.sideEffort .server + l.sideEffort .client

/-- A step that is neither a call nor a failure. -/
def Onward : Action → Prop
  | .event _ a => Connection.Onward a
  | .arrive _ n => 0 < n

instance (a : Action) : Decidable (Onward a) := by
  cases a <;> unfold Onward <;> infer_instance

theorem Joined.arrived_le_effort (h : Joined host ids l) (side : Side) :
    (prices side).sent * l.arrived side.peer
      ≤ (l.conn side).effort (prices side) := by
  have hle := h.arrived_le side.peer
  rw [side.peer_peer] at hle
  refine (Nat.mul_le_mul_left _ ?_).trans (sent_le_effort _ _)
  exact hle.trans (h.phase side).handed_le

theorem effort_eq (l : Link) (side : Side) :
    l.effort = l.sideEffort side + l.sideEffort side.peer := by
  cases side with
  | server => rfl
  | client => exact Nat.add_comm _ _

/-- A byte is paid for until it has been read. -/
theorem prices_sent (side : Side) :
    (prices side.peer).sent = (prices side).unread + 1 := by
  cases side <;> rfl

/-- An event of an end lowers its effort. -/
theorem Joined.effort_event (h : Joined host ids l) {b : Connection.Action}
    {c' : Connection} (hb : Connection.Onward b)
    (hs : Connection.step (host side) (ids side) b (l.conn side) = some c') :
    c'.effort (prices side) < (l.conn side).effort (prices side) := by
  cases side with
  | server => exact (h.phase .server).effort_server hb hs
  | client => exact (h.phase .client).effort_client hb hs

/-- Every onward step lowers what is left. -/
theorem Joined.effort_drops (h : Joined host ids l) (ha : Onward a)
    (hs : Link.step host ids a l = some l') : l'.effort < l.effort := by
  have h' := h.step hs
  rcases step_cases hs with ⟨side, b, c', rfl, -, hc', rfl⟩ |
    ⟨side, n, rfl, -, rfl⟩
  · have hlt := h.effort_event ha hc'
    have hpaid := h'.arrived_le_effort side
    rw [setConn_same] at hpaid
    have hpaid : _ * l.arrived side.peer ≤ _ := hpaid
    have hmine : (l.setConn side c').sideEffort side < l.sideEffort side := by
      rw [sideEffort, sideEffort, setConn_same]
      show _ - _ * l.arrived side.peer < _
      omega
    have hother : (l.setConn side c').sideEffort side.peer
        = l.sideEffort side.peer := by
      rw [sideEffort, sideEffort, setConn_of_ne side.peer_ne]
      rfl
    rw [effort_eq _ side, effort_eq l side]
    omega
  · have hpos : 0 < n := ha
    have hsent := prices_sent side
    have hmine : (l.arrive side n).sideEffort side
        ≤ l.sideEffort side + (prices side).unread * n := by
      have hmore : ((l.arrive side n).conn side).effort (prices side)
          ≤ (l.conn side).effort (prices side)
            + (prices side).unread * n := by
        rw [arrive_conn_same, effort_hear]
        refine Nat.add_le_add_left (Nat.mul_le_mul_left _ ?_) _
        exact List.length_take_le _ _
      rw [sideEffort, sideEffort, arrive_arrived_of_ne side.peer_ne]
      omega
    have hother : (l.arrive side n).sideEffort side.peer
        + ((prices side).unread + 1) * n = l.sideEffort side.peer := by
      have hpaid := h'.arrived_le_effort side.peer
      rw [side.peer_peer, arrive_conn_of_ne side.peer_ne,
        arrive_arrived_same, hsent, Nat.mul_add] at hpaid
      rw [sideEffort, sideEffort, side.peer_peer,
        arrive_conn_of_ne side.peer_ne, arrive_arrived_same, hsent,
        Nat.mul_add]
      omega
    rw [effort_eq _ side, effort_eq l side]
    rw [Nat.add_mul] at hother
    omega

-- ============================================================== at rest

variable (host ids) in
/-- Something can still happen. -/
def CanGoOn (l : Link) : Prop :=
  ∃ a l', Onward a ∧ step host ids a l = some l'

/-- An end that is open, and whose handlers have not thrown. -/
structure Works (c : Connection) : Prop where
  isOpen : c.isOpen = true
  escaped : c.escaped = none

theorem stuck_event (hrest : ¬ CanGoOn host ids l) {b : Connection.Action}
    (hb : Connection.Onward b) (hconn : connectFails b = false)
    (c' : Connection) :
    Connection.step (host side) (ids side) b (l.conn side) ≠ some c' := by
  intro hs
  exact hrest ⟨.event side b, _, hb, step_event hconn hs⟩

/-- Where nothing can happen, an end that works has written all it has
sent. -/
theorem drained_of_rest (hbusy : Busy (l.conn side))
    (hrest : ¬ CanGoOn host ids l) (hw : Works (l.conn side)) :
    Drained (l.conn side) := by
  have hposted : (l.conn side).posted = [] := by
    by_contra hne
    obtain ⟨c', hs⟩ := @can_run (host side) (ids side) _ hw.escaped hne
    exact stuck_event hrest (b := .posted) trivial rfl c' hs
  have hwrites : (l.conn side).writes = [] := by
    by_contra hne
    obtain ⟨op, hmem⟩ := List.exists_mem_of_ne_nil _ hne
    obtain ⟨c', hs⟩ := @can_write (host side) (ids side) _ op hw.escaped hmem
    exact stuck_event hrest (b := .writeDone op true 0) rfl rfl c' hs
  refine ⟨?_, ?_⟩
  · by_contra hne
    exact hbusy hw.isOpen hw.escaped hne hwrites
  · rw [queued, hposted]
    rfl

/-- And all that has arrived. -/
theorem arrived_of_rest (h : Joined host ids l)
    (hrest : ¬ CanGoOn host ids l) :
    l.arrived side = (l.conn side.peer).handed.length := by
  by_contra hne
  have hle := h.arrived_le side
  refine hrest ⟨.arrive side 1, l.arrive side 1, Nat.zero_lt_one, if_pos ?_⟩
  rw [inTransit, List.length_drop]
  omega

/-- So an end that works and reads has read all of it. -/
theorem Joined.quiet_of_rest (h : Joined host ids l)
    (hbusy : ∀ side, Busy (l.conn side)) (hrest : ¬ CanGoOn host ids l)
    (hsender : Works (l.conn side.peer)) (hreceiver : Works (l.conn side))
    (hreads : (l.conn side).reads ≠ [])
    (hfit : ∀ call ∈ (l.conn side.peer).sent,
      (bodyOf call.packet).length ≤ 65535) : Quiet l side := by
  have hdrained := drained_of_rest (hbusy side.peer) hrest hsender
  have harrived := @arrived_of_rest host ids l side h hrest
  obtain ⟨fs, left, hr⟩ := (h.phase side).reading hreads
  obtain ⟨hnone, hempty⟩ := hr.next_none hreceiver.escaped hreads
    fun op c' => stuck_event hrest (b := .readDone op true 0) rfl rfl c'
  -- all that has arrived is frames
  have hprep := (h.phase side.peer).said.2
  have hwhole : (frames.split (l.heard side)).2 = [] := by
    have hall := frames.split_frames
      (fun call : SendCall => headerBytes (host side.peer) call.info)
      (fun call => bodyBytes call.info)
      (fun call hcall => isFrame_of_fits (hprep call hcall)
        (hfit call hcall)) []
    rw [List.append_nil] at hall
    rw [heard, harrived, List.take_length,
      (h.phase side.peer).said_all hdrained, wire, Serial.wire,
      Framing.Format.sent, List.flatMap_map]
    exact congrArg Prod.snd hall
  rw [hr.cursor.tail, frames.split_of_next_none hnone] at hwhole
  obtain ⟨hheader, hin⟩ := hempty hwhole
  exact ⟨hdrained, harrived, hin, hheader⟩

theorem busy_run
    (hrun : Lts.run (step host ids) (start self initPacket now) acts
      = some l) (side : Side) : Busy (l.conn side) := by
  have hinv : Joined host ids l ∧ ∀ side, Busy (l.conn side) := by
    refine Lts.run_invariant (fun l => Joined host ids l
      ∧ ∀ side, Busy (l.conn side)) ?_ ⟨joined_start self initPacket now, ?_⟩
      hrun
    · rintro l a l' ⟨h, hbusy⟩ hs
      refine ⟨h.step hs, fun other => ?_⟩
      rcases step_cases hs with ⟨side, b, c', -, hb, hc', rfl⟩ |
        ⟨side, n, -, -, rfl⟩
      · by_cases ho : other = side
        · subst ho
          rw [setConn_same]
          exact (h.phase other).busy (hbusy other) hb hc'
        · rw [setConn_of_ne ho]
          exact hbusy other
      · obtain ⟨bytes, hconn⟩ := conn_arrive l side n other
        rw [hconn]
        exact hbusy other
    · intro side _ _ hout
      cases side with
      | server => exact absurd rfl hout
      | client => exact absurd rfl hout
  exact hinv.2 side

/-- From any reachable state, without new calls and failures, a link can
take so many steps and no more, in any order; and where none is left to
take, each end that works and reads, behind an end that works, has
received all its peer has sent, header by header, if the bodies fit. -/
theorem comes_to_rest
    (hrun : Lts.run (step host ids) (start self initPacket now) acts
      = some l) :
    ∃ n, ∀ onward l', (∀ a ∈ onward, Onward a) →
      Lts.run (step host ids) l onward = some l' →
        onward.length ≤ n
          ∧ (¬ CanGoOn host ids l' → ∀ side,
            Works (l'.conn side.peer) → Works (l'.conn side) →
            (l'.conn side).reads ≠ [] →
            (∀ call ∈ (l'.conn side.peer).sent,
              (bodyOf call.packet).length ≤ 65535) →
            Quiet l' side
              ∧ (l'.conn side).mMessagesIn.map (·.second.header)
                = (l'.conn side.peer).sent.map fun call =>
                    ⟨call.packet.id, PacketFlags.none,
                      UInt16.ofNat (bodyOf call.packet).length⟩) := by
  have h := joined_run hrun
  refine ⟨l.effort, fun onward l' honward hon => ?_⟩
  obtain ⟨h', hle⟩ := @Potential.length_le _ _ (step host ids) Onward
    (Joined host ids) effort
    (fun l a l' h ha hs => ⟨h.step hs, h.effort_drops ha hs⟩)
    l l' onward h honward hon
  refine ⟨by omega, fun hrest side hsender hreceiver hreads hfit => ?_⟩
  have hbusy : ∀ side, Busy (l'.conn side) :=
    busy_run ((Lts.run_append hrun hon))
  have hquiet := h'.quiet_of_rest hbusy hrest hsender hreceiver hreads hfit
  exact ⟨hquiet, h'.received_all hquiet hfit⟩

/-- The way of a ping, from where the server has sent it. -/
theorem comes_to_rest_ping :
    ∃ l l' n, Lts.run (step (fun _ => .little) fun _ => ⟨1, 2⟩)
        (start (fun _ => 0) none fun _ => 0) (pinged.take 2) = some l
      ∧ Lts.run (step (fun _ => .little) fun _ => ⟨1, 2⟩) l (pinged.drop 2)
        = some l'
      ∧ (l'.conn .client).mMessagesIn
        = [⟨none, ⟨⟨1, 0, 8⟩, ⟨[7, 0, 0, 0, 0, 0, 0, 0], 0⟩⟩⟩]
      ∧ (pinged.drop 2).length ≤ n := by
  obtain ⟨l', hrun, hmsgs, -⟩ := pinged_run
  obtain ⟨l, hbefore, hafter⟩ := Lts.run_append_eq_some.mp
    (show Lts.run _ _ (pinged.take 2 ++ pinged.drop 2) = some l' from hrun)
  obtain ⟨n, hn⟩ := comes_to_rest hbefore
  have honward : ∀ a ∈ pinged.drop 2, Onward a := by decide
  exact ⟨l, l', n, hbefore, hafter, hmsgs, (hn _ l' honward hafter).1⟩

end Link

end AWEnginePacket
