/-
What each method of a connection does to the sending side.

The sending side is the outgoing queue, the outstanding writes, the
bytes handed to the socket, and the messages on their way into the
queue: `calls` still between `Send`'s check and its post, and `queued`
handlers posted and not yet run. `sent` is the list of all messages
posted so far, in post order, read off the history.

`prepare_run` is the specification of `Send` up to its post. Every
message it makes is `Prepared`: the body is what the packet's `Write`
put into an empty buffer, the header carries the packet's ID, no flags
and the 16-bit size. The reading side touches the sending side only by
posting such messages and by closing the socket, which is the frame
`sendFrame`; one lemma a method shows that it keeps it.
-/
import AWEnginePacket.Model.Connection

namespace AWEnginePacket

open Endian (ByteOrder)
open Effect

-- =========================================================== vocabulary

/-- The call whose message an observation posts. -/
def Obs.call? : Obs → Option SendCall
  | .posted call => some call
  | _ => none

/-- The message a posted handler carries. -/
def Handler.message? : Handler → Option PacketSendInfo
  | .queueMessage info => some info
  | .close => none

namespace Connection

/-- All messages posted so far, in post order. -/
def sent (c : Connection) : List SendCall := c.hist.filterMap Obs.call?

/-- Messages posted and not yet in the outgoing queue. -/
def queued (c : Connection) : List PacketSendInfo :=
  c.posted.filterMap Handler.message?

/-- Messages that `Send` has accepted and that are not yet in the
outgoing queue. -/
def onTheWay (c : Connection) : List PacketSendInfo :=
  c.queued ++ c.calls.map (·.info)

/-- A server's side of a connection as `ConnectToClient()` leaves it. -/
def started (self : Nat) (incoming : List UInt8) (now : TimePoint) :
    Connection :=
  after connectToClient (create self .toClient true incoming now)

variable (host : ByteOrder) (ids : PacketIDs)

/-- The message `Send` makes of a packet whose `Write` left `body`. -/
def makeInfo (packet : IPacket) (body : PacketBuffer) : PacketSendInfo :=
  { header := { id := packet.id, size := htobe16 host body.size.toUInt16 }
    body }

/-- The call carries the message `Send` makes of its packet. -/
def Prepared (call : SendCall) : Prop :=
  call.packet.write.run {} = .ok ⟨⟩ call.info.body
    ∧ call.info = makeInfo host call.packet call.info.body

/-- `Send` stores the payload of this message in
`m_LastKeepAliveValue`. -/
def Captures (c : Connection) (info : PacketSendInfo) : Prop :=
  c.mDirection = .toClient ∧ info.header.id = ids.keepAlive
    ∧ info.header.flags = PacketFlags.none ∧ info.header.size.toNat ≥ 8

instance (c : Connection) (info : PacketSendInfo) :
    Decidable (Captures ids c info) := by
  unfold Captures
  infer_instance

/-- The connection after `Send` has looked at the message's ID. -/
def remembered (c : Connection) (info : PacketSendInfo) : Connection :=
  if Captures ids c info then
    { c with mLastKeepAliveValue := loadUInt64 host (info.body.bytesFrom 8)
             hist := c.hist ++ [.pinged (loadUInt64 host (info.body.bytesFrom 8))] }
  else c

-- ============================================================== `Send`

/-- `Send` up to its post, as one equation. -/
theorem prepare_run (packet : IPacket) (c : Connection) :
    (prepare host ids packet).run c
      = if c.isConnected then
          match packet.write.run {} with
          | .error e _ => .error e c
          | .ok _ body =>
              .ok ⟨packet, makeInfo host packet body⟩
                (remembered host ids c (makeInfo host packet body))
        else .error (.runtimeError "Not Connected - Send(packet)") c := by
  unfold prepare
  simp only [EStateM.run_bind, EStateM.run_get]
  cases hc : c.isConnected with
  | false => rfl
  | true =>
      simp only [Bool.not_true, Bool.false_eq_true, if_false, if_true]
      cases hw : packet.write.run {} with
      | error e b => rfl
      | ok u body =>
          simp only [remembered]
          by_cases hd : c.mDirection = .toClient
          · rw [if_pos hd]
            by_cases hi : packet.id = ids.keepAlive
            · rw [if_pos hi]
              by_cases hs : (htobe16 host body.size.toUInt16).toNat ≥ 8
              · rw [if_pos ⟨trivial, hs⟩, if_pos ⟨hd, hi, rfl, hs⟩]
                rfl
              · rw [if_neg fun h => hs h.2, if_neg fun h => hs h.2.2.2]
                rfl
            · rw [if_neg hi, if_neg fun h => hi h.2.1]
              rfl
          · rw [if_neg hd, if_neg fun h => hd h.1]
            rfl

/-- A `Send` past its check was connected, and has prepared its
message. -/
theorem of_prepare_ok {packet : IPacket} {c c' : Connection}
    {call : SendCall}
    (h : (prepare host ids packet).run c = .ok call c') :
    c.isConnected = true ∧ call.packet = packet ∧ Prepared host call
      ∧ c' = remembered host ids c call.info := by
  rw [prepare_run] at h
  cases hc : c.isConnected with
  | false => simp [hc] at h
  | true =>
      rw [hc, if_pos rfl] at h
      cases hw : packet.write.run {} with
      | error e b => rw [hw] at h; cases h
      | ok u body =>
          rw [hw] at h
          injection h with hcall hs
          subst hcall
          exact ⟨rfl, rfl, ⟨hw, rfl⟩, hs.symm⟩

/-- A `Send` that throws leaves the connection as it was. -/
theorem of_prepare_error {packet : IPacket} {c c' : Connection} {e : Fault}
    (h : (prepare host ids packet).run c = .error e c') : c' = c := by
  rw [prepare_run] at h
  split at h
  · split at h
    · injection h with _ hs
      exact hs.symm
    · cases h
  · injection h with _ hs
    exact hs.symm

/-- `Send` returns from a connected connection where the packet's `Write`
does. -/
def Sends (packet : IPacket) (c : Connection) : Prop :=
  c.isConnected = true ∧ ∃ body, packet.write.run {} = .ok ⟨⟩ body

/-- The two ways `Send` gets to its post or does not. -/
theorem prepare_cases (packet : IPacket) (c : Connection) :
    (Sends packet c ∧ ∃ call c', (prepare host ids packet).run c
        = .ok call c')
      ∨ ¬ Sends packet c ∧ ∃ e, (prepare host ids packet).run c
        = .error e c := by
  cases hprep : (prepare host ids packet).run c with
  | ok call c₁ =>
      obtain ⟨hc, rfl, hp, -⟩ := of_prepare_ok host ids hprep
      exact .inl ⟨⟨hc, _, hp.1⟩, call, c₁, rfl⟩
  | error e c₁ =>
      refine .inr ⟨?_, e, by rw [of_prepare_error host ids hprep]⟩
      rintro ⟨hc, body, hw⟩
      rw [prepare_run, if_pos hc, hw] at hprep
      cases hprep

theorem sendBegin_cases (packet : IPacket) (c : Connection) :
    (Sends packet c ∧ ∃ c', (sendBegin host ids packet).run c = .ok ⟨⟩ c')
      ∨ ¬ Sends packet c ∧ ∃ e, (sendBegin host ids packet).run c
        = .error e c := by
  rcases prepare_cases host ids packet c
    with ⟨hsends, call, c₁, hprep⟩ | ⟨hthrows, e, hprep⟩
  · exact .inl ⟨hsends, _, run_bind_of_ok hprep⟩
  · exact .inr ⟨hthrows, e, run_bind_of_error hprep⟩

-- =========================================================== the frame

/-- The sending side as `c` and `c'` see it differs by the messages
`new`, which a connected `c` has posted. -/
structure Posts (c c' : Connection) (new : List SendCall) : Prop where
  messagesOut : c'.mMessagesOut = c.mMessagesOut
  writes : c'.writes = c.writes
  handed : c'.handed = c.handed
  count : c'.mSentPacketCount = c.mSentPacketCount
  calls : c'.calls = c.calls
  isConnecting : c'.mIsConnecting = c.mIsConnecting
  connecting : c'.connecting = c.connecting
  isOpen : c'.isOpen = c.isOpen
  posted : c'.posted
    = c.posted ++ new.map fun call => Handler.queueMessage call.info
  sent : c'.sent = c.sent ++ new
  prepared : ∀ call ∈ new, Prepared host call
  connected : new ≠ [] → c.isConnected = true

/-- The fields `Posts` compares. -/
def sendSide (c : Connection) :=
  (c.mMessagesOut, c.writes, c.handed, c.mSentPacketCount, c.calls,
    c.mIsConnecting, c.connecting, c.isOpen, c.posted, c.sent)

variable {host ids} {c c' c'' : Connection} {new new' : List SendCall}

theorem Posts.of_sendSide_eq (h : c'.sendSide = c.sendSide) :
    Posts host c c' [] := by
  simp only [sendSide, Prod.mk.injEq] at h
  obtain ⟨h1, h2, h3, h4, h5, h6, h7, h8, h9, h10⟩ := h
  refine ⟨h1, h2, h3, h4, h5, h6, h7, h8, ?_, ?_, ?_, ?_⟩
  · rw [h9, List.map_nil, List.append_nil]
  · rw [h10, List.append_nil]
  · intro call hcall
    cases hcall
  · intro hne
    exact absurd rfl hne

theorem Posts.isConnected (h : Posts host c c' new) :
    c'.isConnected = c.isConnected := by
  rw [Connection.isConnected, Connection.isConnected, h.isOpen,
    h.isConnecting]

theorem Posts.trans (h : Posts host c c' new) (h' : Posts host c' c'' new') :
    Posts host c c'' (new ++ new') := by
  refine ⟨h'.messagesOut.trans h.messagesOut, h'.writes.trans h.writes,
    h'.handed.trans h.handed, h'.count.trans h.count,
    h'.calls.trans h.calls, h'.isConnecting.trans h.isConnecting,
    h'.connecting.trans h.connecting, h'.isOpen.trans h.isOpen, ?_, ?_,
    ?_, ?_⟩
  · rw [h'.posted, h.posted, List.map_append, List.append_assoc]
  · rw [h'.sent, h.sent, List.append_assoc]
  · intro call hcall
    rcases List.mem_append.mp hcall with hc | hc
    · exact h.prepared call hc
    · exact h'.prepared call hc
  · intro hne
    by_cases hnew : new = []
    · rw [hnew, List.nil_append] at hne
      rw [← h.isConnected]
      exact h'.connected hne
    · exact h.connected hnew

theorem Posts.queued (h : Posts host c c' new) :
    c'.queued = c.queued ++ new.map (·.info) := by
  rw [Connection.queued, h.posted, List.filterMap_append,
    List.filterMap_map]
  have hsome : (Handler.message? ∘ fun call : SendCall =>
      Handler.queueMessage call.info) = some ∘ (·.info) := rfl
  rw [hsome, List.filterMap_eq_map, Connection.queued]

/-- Nothing new sets out on a connection that is not connected. -/
theorem Posts.onTheWay_eq_nil (h : Posts host c c' new)
    (hc : c.isConnected = false) (hway : c.onTheWay = []) :
    c'.onTheWay = [] := by
  have hnew : new = [] := by
    by_cases hne : new = []
    · exact hne
    · rw [h.connected hne] at hc
      cases hc
  rw [onTheWay, h.queued, h.calls, hnew, List.map_nil, List.append_nil]
  exact hway

variable (host) in
/-- Nothing but posting messages happens to the sending side, and no
method touches `escaped`. -/
def sendFrame : Frame Connection where
  rel c c' := (∃ new, Posts host c c' new) ∧ c'.escaped = c.escaped
  refl _ := ⟨⟨[], .of_sendSide_eq rfl⟩, rfl⟩
  trans h h' := by
    obtain ⟨⟨new, h⟩, he⟩ := h
    obtain ⟨⟨new', h'⟩, he'⟩ := h'
    exact ⟨⟨new ++ new', h.trans h'⟩, he'.trans he⟩

/-- An assignment to other fields is in the frame. -/
theorem keeps_sendFrame {f : Connection → Connection}
    (h : ∀ c, (f c).sendSide = c.sendSide ∧ (f c).escaped = c.escaped) :
    Keeps (sendFrame host) (modify f : ConnM PUnit) :=
  keeps_modify fun c => ⟨⟨[], .of_sendSide_eq (h c).1⟩, (h c).2⟩

theorem record_keeps {o : Obs} (ho : o.call? = none) :
    Keeps (sendFrame host) (record o) := by
  refine keeps_sendFrame fun c => ?_
  have hsent : Connection.sent { c with hist := c.hist ++ [o] } = c.sent := by
    rw [Connection.sent, List.filterMap_append]
    simp [ho, Connection.sent]
  rw [sendSide, hsent]
  exact ⟨rfl, rfl⟩

variable (host ids) in
theorem remembered_posts (c : Connection) (info : PacketSendInfo) :
    Posts host c (remembered host ids c info) [] := by
  unfold remembered
  split
  · refine .of_sendSide_eq ?_
    simp [sendSide, Connection.sent, Obs.call?]
  · exact .of_sendSide_eq rfl

theorem remembered_escaped (info : PacketSendInfo) :
    (remembered host ids c info).escaped = c.escaped := by
  unfold remembered
  split
  · rfl
  · rfl

theorem post_sent (c : Connection) (call : SendCall) :
    (after (post call) c).sent = c.sent ++ [call] := by
  show ({ c with hist := c.hist ++ [.posted call] } : Connection).sent = _
  rw [Connection.sent, List.filterMap_append]
  rfl

/-- Posting a prepared message from a connected connection. -/
theorem post_posts {call : SendCall} (hp : Prepared host call)
    (hc : c.isConnected = true) :
    Posts host c (after (post call) c) [call] := by
  refine ⟨rfl, rfl, rfl, rfl, rfl, rfl, rfl, rfl, rfl, post_sent c call, ?_,
    fun _ => hc⟩
  intro call' hcall
  rw [List.mem_singleton.mp hcall]
  exact hp

/-- A `Send` that returns has posted the message it prepared. -/
theorem of_send_ok {packet : IPacket}
    (h : (send host ids packet).run c = .ok ⟨⟩ c') :
    ∃ call, call.packet = packet ∧ Prepared host call
      ∧ c.isConnected = true
      ∧ c' = after (post call) (remembered host ids c call.info) := by
  obtain ⟨call, c₁, hprep, hpost⟩ := of_run_bind_ok h
  obtain ⟨hc, hpacket, hp, rfl⟩ := of_prepare_ok host ids hprep
  exact ⟨call, hpacket, hp, hc, (after_of_ok hpost).symm⟩

/-- A `Send` on a connected connection returns if the packet's `Write`
does. -/
theorem send_run_of_ok {packet : IPacket} {body : PacketBuffer}
    (hc : c.isConnected = true)
    (hw : packet.write.run {} = .ok ⟨⟩ body) :
    (send host ids packet).run c
      = .ok ⟨⟩ (after (post ⟨packet, makeInfo host packet body⟩)
          (remembered host ids c (makeInfo host packet body))) := by
  have hprep : (prepare host ids packet).run c
      = .ok ⟨packet, makeInfo host packet body⟩
        (remembered host ids c (makeInfo host packet body)) := by
    rw [prepare_run, if_pos hc, hw]
  unfold send
  rw [run_bind_of_ok hprep]
  rfl

/-- All that a `Send` that returns does to the sending side. -/
theorem of_send_ok_posts {packet : IPacket}
    (h : (send host ids packet).run c = .ok ⟨⟩ c') :
    ∃ call, call.packet = packet ∧ Posts host c c' [call]
      ∧ c'.escaped = c.escaped := by
  obtain ⟨call, hpacket, hp, hc, rfl⟩ := of_send_ok h
  have hr := remembered_posts host ids c call.info
  exact ⟨call, hpacket, hr.trans (post_posts hp (hr.isConnected.trans hc)),
    remembered_escaped call.info⟩

theorem send_keeps (packet : IPacket) :
    Keeps (sendFrame host) (send host ids packet) := by
  intro c
  cases hrun : (send host ids packet).run c with
  | ok u c' =>
      rw [after_of_ok hrun]
      obtain ⟨call, -, h, he⟩ := of_send_ok_posts hrun
      exact ⟨⟨[call], h⟩, he⟩
  | error e c' =>
      -- only the check or the packet's `Write` can throw
      rw [after_of_error hrun]
      unfold send at hrun
      cases hprep : (prepare host ids packet).run c with
      | ok call c₁ =>
          rw [run_bind_of_ok hprep] at hrun
          cases hrun
      | error e' c₁ =>
          rw [run_bind_of_error hprep] at hrun
          injection hrun with _ hc
          rw [← hc, of_prepare_error host ids hprep]
          exact (sendFrame host).refl c

-- ==================================================== the reading side

theorem readHeader_keeps : Keeps (sendFrame host) readHeader :=
  keeps_sendFrame fun _ => ⟨rfl, rfl⟩

theorem readBody_keeps : Keeps (sendFrame host) readBody := by
  refine .bind (keeps_sendFrame ?_) fun _ => ?_
  · intro _
    exact ⟨rfl, rfl⟩
  · exact keeps_get.bind fun _ => keeps_sendFrame fun _ => ⟨rfl, rfl⟩

variable (host) in
/-- What a server makes of a KeepAlive message: the end of the branch. -/
def pongReceived (msg : PacketSendInfo) (now : TimePoint) : ConnM PUnit := do
  if (← get).mDirection = .toClient then
    if loadUInt64 host (msg.body.bytesFrom 8)
        = (← get).mLastKeepAliveValue then
      modify fun c => { c with mLastKeepAlive := now }
      record (.refreshed (loadUInt64 host (msg.body.bytesFrom 8)) now)
    else
      modify fun c => { c with mLastKeepAlive := 0 }
      record (.dropped (loadUInt64 host (msg.body.bytesFrom 8)))

/-- The KeepAlive branch keeps a frame that its assignments, its records
and the `Send` of its answer keep. -/
theorem keepAliveReceived_keeps {F : Frame Connection}
    (hset : ∀ (c : Connection) t, F.rel c { c with mLastKeepAlive := t })
    (hrecord : ∀ o, o.call? = none → Keeps F (record o))
    (hsend : ∀ p, Keeps F (send host ids (Ping.toPacket host ids.keepAlive p)))
    (msg : PacketSendInfo) (now : TimePoint) :
    Keeps F (keepAliveReceived host ids msg now) := by
  have hrefresh (t : TimePoint) (o : Obs) (ho : o.call? = none) :
      Keeps F (do modify fun c => { c with mLastKeepAlive := t }
                  record o : ConnM PUnit) :=
    .bind (fun c => hset c t) fun _ => hrecord o ho
  have hverdict : Keeps F (pongReceived host msg now) := by
    refine keeps_get.bind fun _ => .ite (keeps_get.bind fun _ => ?_)
      (keeps_pure _)
    exact .ite (hrefresh _ _ rfl) (hrefresh _ _ rfl)
  unfold keepAliveReceived
  dsimp only
  refine .check (.check (keeps_get.bind fun _ => .when ?_ ?_ hverdict))
  · exact fun c => hset c now
  · intro _
    exact (hsend _).bind fun _ => hverdict

/-- The Init branch never touches the connection. -/
theorem initReceived_keeps {F : Frame Connection} (msg : PacketSendInfo) :
    Keeps F (initReceived host msg) := by
  unfold initReceived
  dsimp only
  refine .check (.check ?_)
  split
  · exact keeps_throw _
  · exact .ite (keeps_throw _) (keeps_pure _)

/-- Filing a message keeps a frame that its assignments, its push and
the calls it makes keep. -/
theorem addToIncomingMessageQueue_keeps_of {F : Frame Connection}
    (hcount : ∀ (c : Connection) t n, F.rel c
      { c with mLastReceivedMessageTime := t, mReceivedPacketCount := n })
    (hpush : ∀ (c : Connection) msgs,
      F.rel c { c with mMessagesIn := msgs })
    (hread : Keeps F readHeader)
    (halive : ∀ msg now, Keeps F (keepAliveReceived host ids msg now))
    (now : TimePoint) : Keeps F (addToIncomingMessageQueue host ids now) := by
  unfold addToIncomingMessageQueue
  refine keeps_get.bind fun c => ?_
  have hrest (msg : OwnedMessage) : Keeps F
      (if msg.second.header.id = ids.init ∧ c.mDirection = .toClient then
        initReceived host msg.second
      else do
        modify fun c => { c with mMessagesIn := c.mMessagesIn ++ [msg] }
        readHeader) := by
    refine .ite (initReceived_keeps _) (.bind (keeps_modify ?_) ?_)
    · intro c
      exact hpush c _
    · intro _
      exact hread
  dsimp only
  refine .bind (keeps_modify ?_) fun _ => .when ?_ ?_ ?_
  · intro c
    exact hcount c _ _
  · exact halive _ _
  · intro _
    exact hrest ⟨_, c.mWipInMessage⟩
  · exact hrest ⟨_, c.mWipInMessage⟩

theorem addToIncomingMessageQueue_keeps (now : TimePoint) :
    Keeps (sendFrame host) (addToIncomingMessageQueue host ids now) := by
  refine addToIncomingMessageQueue_keeps_of ?_ ?_ readHeader_keeps ?_ now
  · intro c t n
    exact ⟨⟨[], .of_sendSide_eq rfl⟩, rfl⟩
  · intro c msgs
    exact ⟨⟨[], .of_sendSide_eq rfl⟩, rfl⟩
  · refine keepAliveReceived_keeps ?_ ?_ fun _ => send_keeps _
    · intro c t
      exact ⟨⟨[], .of_sendSide_eq rfl⟩, rfl⟩
    · intro _ ho
      exact record_keeps ho

-- ========================================================== exceptions

/-- What `WriteHeader()` throws. -/
def notConnected : Fault := .runtimeError "Not Connected - WriteHeader()"

/-- No exception that the computation throws is `WriteHeader()`'s. -/
abbrev ThrowsOther {σ α : Type} (m : EStateM Fault σ α) : Prop :=
  Throws (· ≠ notConnected) m

private theorem throwsOther {σ α : Type} {text : String}
    (h : text ≠ "Not Connected - WriteHeader()") :
    ThrowsOther (throw (.runtimeError text) : EStateM Fault σ α) := by
  refine throws_throw fun heq => h ?_
  injection heq

/-- A check with another text. -/
private theorem throwsOther_check {σ α β : Type} {p : Prop} [Decidable p]
    {text : String} {k : α → EStateM Fault σ β} {k' : EStateM Fault σ β}
    (h : text ≠ "Not Connected - WriteHeader()") (hk' : ThrowsOther k')
    (hk : ∀ a, ThrowsOther (k a)) :
    ThrowsOther (if p then throw (.runtimeError text) >>= k else k') :=
  .when (throwsOther h) hk hk'

theorem read_throws : ThrowsOther PacketBuffer.read := by
  refine throws_get.bind fun _ => ?_
  split
  · exact throwsOther (by simp)
  · exact (throws_modify _).bind fun _ => throws_pure _

theorem readInto_throws (n : Nat) : ThrowsOther (PacketBuffer.readInto n) := by
  induction n with
  | zero => exact throws_pure _
  | succ n ih => exact read_throws.bind fun _ => ih.bind fun _ => throws_pure _

theorem readArray_throws (n : Nat) :
    ThrowsOther (PacketBuffer.readArray n) := by
  have htry : ThrowsOther PacketBuffer.tryRead := by
    refine throws_get.bind fun _ => ?_
    split
    · exact throws_pure _
    · exact (throws_modify _).bind fun _ => throws_pure _
  induction n with
  | zero => exact throws_pure _
  | succ n ih =>
      refine htry.bind fun v => ?_
      cases v with
      | none => exact throws_pure _
      | some v => exact ih.bind fun _ => throws_pure _

/-- Decoding an `Init` only throws what `Read()` does. -/
theorem init_parse_throws : ThrowsOther (Init.parse host) := by
  have hlocale : ThrowsOther LocaleInfo.get := by
    refine read_throws.bind fun _ => read_throws.bind fun _ => .ite ?_ ?_
    · refine read_throws.bind fun _ => read_throws.bind fun _ => .ite ?_ ?_
      · exact throws_pure _
      · exact throws_pure _
    · exact (throws_modify _).bind fun _ => throws_pure _
  refine .bind ?_ fun _ => .bind ?_ fun _ => hlocale.bind fun _ =>
    read_throws.bind fun _ => throws_pure _
  · exact (readArray_throws _).bind fun _ => throws_pure _
  · exact ((readInto_throws 4).bind fun _ => throws_pure _).bind fun _ =>
      throws_pure _

/-- Sending the echo of a ping throws `Send`'s own text, or that of a
full buffer. -/
theorem send_ping_throws (id : UInt8) (p : Ping) :
    ThrowsOther (send host ids (p.toPacket host id)) := by
  have herase : ThrowsOther PacketBuffer.removeStartOffset := by
    refine throws_get.bind fun _ => .ite ?_ (throws_pure _)
    refine .when (throws_throw ?_) (fun _ => throws_modify _) (throws_modify _)
    simp [notConnected]
  have hwrite (v : UInt8) : ThrowsOther (PacketBuffer.write v) := by
    refine herase.bind fun _ => throws_get.bind fun _ =>
      throwsOther_check (by simp) (throws_modify _) fun _ => throws_modify _
  have hping : ThrowsOther (p.toPacket host id).write := Throws.forM hwrite _
  refine .bind ?_ fun _ => throws_modify _
  intro c e c' hrun
  rw [prepare_run] at hrun
  split at hrun
  · split at hrun
    case h_1 e' b hput =>
      injection hrun with he
      exact he ▸ hping _ _ _ hput
    case h_2 => cases hrun
  · injection hrun with he
    rw [← he]
    simp [notConnected]

theorem keepAliveReceived_throws (msg : PacketSendInfo) (now : TimePoint) :
    ThrowsOther (keepAliveReceived host ids msg now) := by
  have hset (f : Connection → Connection) (o : Obs) :
      ThrowsOther (do modify f; record o : ConnM PUnit) :=
    (throws_modify f).bind fun _ => throws_modify _
  have hverdict : ThrowsOther (pongReceived host msg now) :=
    throws_get.bind fun _ => .ite (throws_get.bind fun _ =>
      .ite (hset _ _) (hset _ _)) (throws_pure _)
  have hrest : ThrowsOther (do
      if (← get).mDirection = .toServer then
        modify fun c => { c with mLastKeepAlive := now }
        send host ids (Ping.toPacket host ids.keepAlive
          ⟨loadUInt64 host (msg.body.bytesFrom 8)⟩)
      pongReceived host msg now
      : ConnM PUnit) := by
    refine throws_get.bind fun _ => .when (throws_modify _) ?_ hverdict
    intro _
    exact (send_ping_throws _ _).bind fun _ => hverdict
  unfold keepAliveReceived
  dsimp only
  refine throwsOther_check (by simp) ?_ fun _ => ?_
  · exact throwsOther_check (by simp) hrest fun _ => hrest
  · exact throwsOther_check (by simp) hrest fun _ => hrest

theorem initReceived_throws (msg : PacketSendInfo) :
    ThrowsOther (initReceived host msg) := by
  have hchecks (m : ConnM PUnit) (hm : ThrowsOther m) : ThrowsOther (do
      if msg.header.flags ≠ PacketFlags.none then
        throw (.runtimeError "Init packet cannot have any flags")
      if msg.header.size ≠ 17 then
        throw (.runtimeError "Init packet has invalid size")
      m) := by
    dsimp only
    refine throwsOther_check (by simp) ?_ fun _ => ?_
    · exact throwsOther_check (by simp) hm fun _ => hm
    · exact throwsOther_check (by simp) hm fun _ => hm
  unfold initReceived
  cases hrun : (Init.parse host).run msg.body with
  | error e b =>
      exact hchecks _ (throws_throw (init_parse_throws _ _ _ hrun))
  | ok initPacket b =>
      exact hchecks _ (.ite (throwsOther (by simp)) (throws_pure _))

theorem addToIncomingMessageQueue_throws (now : TimePoint) :
    ThrowsOther (addToIncomingMessageQueue host ids now) := by
  unfold addToIncomingMessageQueue
  refine throws_get.bind fun c => ?_
  have hrest (msg : OwnedMessage) : ThrowsOther
      (if msg.second.header.id = ids.init ∧ c.mDirection = .toClient then
        initReceived host msg.second
      else do
        modify fun c => { c with mMessagesIn := c.mMessagesIn ++ [msg] }
        readHeader) :=
    .ite (initReceived_throws _) ((throws_modify _).bind fun _ =>
      throws_modify _)
  dsimp only
  refine (throws_modify _).bind fun _ =>
    .when (keepAliveReceived_throws _ _) ?_ ?_
  · intro _
    exact hrest ⟨_, c.mWipInMessage⟩
  · exact hrest ⟨_, c.mWipInMessage⟩

end Connection

end AWEnginePacket
