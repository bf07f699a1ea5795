/-
Bytes that have arrived and that no read has taken yet.

A connection looks at `incoming` only when a read completes, and then
only at the bytes that read asked for. So every method ignores bytes
behind those (`Ignores`), and whatever a connection does it would also
have done had more arrived already (`step_ahead`).
-/
import AWEnginePacket.Proofs.Link

namespace AWEnginePacket

open Endian (ByteOrder)
open Effect

namespace Connection

variable {host : ByteOrder} {ids : PacketIDs} {c c' : Connection}

/-- The same connection once more bytes have arrived. -/
def ahead (more : List UInt8) (c : Connection) : Connection :=
  { c with incoming := c.incoming ++ more }

variable {more : List UInt8}

-- ============================================================== methods

/-- An assignment to other fields. -/
theorem assign_ignores {g : Connection → Connection}
    (h : ∀ c, g (c.ahead more) = (g c).ahead more) :
    Ignores (ahead more) (modify g : ConnM PUnit) := ignores_modify h

/-- The front of the outgoing queue. -/
theorem peekFront_ignores : Ignores (ahead more) peekFront := by
  refine Ignores.get_bind (fun _ => rfl) fun c => ?_
  split
  · exact ignores_throw _
  · exact ignores_pure _

/-- And its removal. -/
theorem popFront_ignores : Ignores (ahead more) popFront := by
  refine Ignores.get_bind (fun _ => rfl) fun c => ?_
  split
  · exact ignores_throw _
  · exact assign_ignores fun _ => rfl

/-- Writing looks at the socket and the outgoing queue only. -/
theorem writeHeader_ignores : Ignores (ahead more) (writeHeader host) := by
  unfold writeHeader
  refine Ignores.get_bind (fun _ => rfl) fun c => .check ?_
  exact peekFront_ignores.bind fun _ => assign_ignores fun _ => rfl

/-- So does going on with the next message. -/
theorem messageWritten_ignores (now : TimePoint) :
    Ignores (ahead more) (messageWritten host now) := by
  unfold messageWritten
  refine popFront_ignores.bind fun _ => ?_
  refine Ignores.bind (assign_ignores ?_) fun _ => ?_
  · intro _
    rfl
  · refine Ignores.get_bind (fun _ => rfl) fun c => ?_
    exact .ite writeHeader_ignores (ignores_pure _)

/-- A socket is closed over bytes that nobody has read. -/
theorem close_ignores : Ignores (ahead more) close :=
  assign_ignores fun _ => rfl

/-- No completion of a write looks at what has been received. -/
theorem writeCompleted_ignores (op : WriteOp) (ok : Bool) (now : TimePoint) :
    Ignores (ahead more) (writeCompleted host op ok now) := by
  have hbody : Ignores (ahead more) writeBody :=
    peekFront_ignores.bind fun _ => assign_ignores fun _ => rfl
  cases op with
  | header =>
      refine .ite (peekFront_ignores.bind fun _ => ?_) close_ignores
      exact .ite hbody (messageWritten_ignores now)
  | body => exact .ite (messageWritten_ignores now) close_ignores

/-- Nor does a posted handler. -/
theorem runPosted_ignores (handler : Handler) :
    Ignores (ahead more) (runPosted host handler) := by
  cases handler with
  | queueMessage info =>
      refine Ignores.get_bind (fun _ => rfl) fun c => ?_
      dsimp only
      refine .bind (assign_ignores fun _ => rfl) fun _ => ?_
      exact .ite writeHeader_ignores (ignores_pure _)
  | close => exact close_ignores

/-- What a `Send` prepares depends on the packet and, for a ping, on the
direction. -/
theorem prepare_ignores (packet : IPacket) :
    Ignores (ahead more) (prepare host ids packet) := by
  unfold prepare
  refine Ignores.get_bind (fun _ => rfl) fun c => .check ?_
  split
  · exact ignores_throw _
  · refine .ite (.ite (.ite ?_ ?_) ?_) ?_
    · dsimp only
      refine .bind (assign_ignores fun _ => rfl) fun _ => ?_
      exact .bind (assign_ignores fun _ => rfl) fun _ => ignores_pure _
    · exact ignores_pure _
    · exact ignores_pure _
    · exact ignores_pure _

/-- So does what it posts. -/
theorem send_ignores (packet : IPacket) :
    Ignores (ahead more) (send host ids packet) :=
  (prepare_ignores packet).bind fun _ => assign_ignores fun _ => rfl

/-- `Disconnect()` asks whether the socket is open. -/
theorem disconnect_ignores : Ignores (ahead more) disconnect := by
  refine Ignores.get_bind (fun _ => rfl) fun c => .ite ?_ (ignores_pure _)
  exact assign_ignores fun _ => rfl

/-- A KeepAlive is judged or answered by the message it is in, which has
been read. -/
theorem keepAliveReceived_ignores (msg : PacketSendInfo) (now : TimePoint) :
    Ignores (ahead more) (keepAliveReceived host ids msg now) := by
  have hnote (t : TimePoint) (o : Obs) : Ignores (ahead more)
      (do modify fun c => { c with mLastKeepAlive := t }
          record o : ConnM PUnit) :=
    .bind (assign_ignores fun _ => rfl) fun _ => assign_ignores fun _ => rfl
  have hjudge : Ignores (ahead more) (pongReceived host msg now) := by
    refine Ignores.get_bind (fun _ => rfl) fun _ => .ite ?_ (ignores_pure _)
    refine Ignores.get_bind (fun _ => rfl) fun _ => ?_
    exact .ite (hnote _ _) (hnote _ _)
  unfold keepAliveReceived
  dsimp only
  refine .check (.check (Ignores.get_bind (fun _ => rfl) fun c => ?_))
  refine .when (assign_ignores fun _ => rfl) (fun _ => ?_) hjudge
  exact (send_ignores _).bind fun _ => hjudge

/-- So is an `Init`. -/
theorem initReceived_ignores (msg : PacketSendInfo) :
    Ignores (ahead more) (initReceived host msg) := by
  unfold initReceived
  dsimp only
  refine .check (.check ?_)
  split
  · exact ignores_throw _
  · exact .ite (ignores_throw _) (ignores_pure _)

/-- A message is filed whole, and the next read is only begun. -/
theorem addToIncomingMessageQueue_ignores (now : TimePoint) :
    Ignores (ahead more) (addToIncomingMessageQueue host ids now) := by
  unfold addToIncomingMessageQueue
  refine Ignores.get_bind (fun _ => rfl) fun c => ?_
  dsimp only
  have hfile (p : Prop) [Decidable p] (info : PacketSendInfo)
      (msg : OwnedMessage) : Ignores (ahead more)
      (if p then initReceived host info
      else do
        modify fun c => { c with mMessagesIn := c.mMessagesIn ++ [msg] }
        readHeader) := by
    refine .ite (initReceived_ignores _) ?_
    refine .bind (assign_ignores fun _ => rfl) fun _ => ?_
    exact assign_ignores fun _ => rfl
  refine Ignores.bind (assign_ignores fun _ => rfl) fun _ => .when ?_ ?_ ?_
  · exact keepAliveReceived_ignores _ _
  · intro _
    exact hfile _ _ _
  · exact hfile _ _ _

/-- The completion of a read comes after the bytes it took: what is behind
them it does not see. -/
theorem readCompleted_ignores (op : ReadOp) (ok : Bool) (now : TimePoint) :
    Ignores (ahead more) (readCompleted host ids op ok now) := by
  have hbody : Ignores (ahead more) readBody := by
    refine Ignores.bind (assign_ignores fun _ => rfl) fun _ => ?_
    exact Ignores.get_bind (fun _ => rfl) fun _ => assign_ignores fun _ => rfl
  cases op with
  | header =>
      refine .bind (assign_ignores fun _ => rfl) fun _ => ?_
      refine .ite ?_ close_ignores
      refine Ignores.get_bind (fun _ => rfl) fun _ => .ite ?_ hbody
      exact addToIncomingMessageQueue_ignores now
  | body n =>
      refine .ite (Ignores.get_bind (fun _ => rfl) fun _ => ?_) close_ignores
      exact .ite close_ignores (addToIncomingMessageQueue_ignores now)

/-- A connect sends its packet and begins to read. -/
theorem connectCompleted_ignores (ok : Bool) :
    Ignores (ahead more) (connectCompleted host ids ok) := by
  unfold connectCompleted
  refine .bind (assign_ignores fun _ => rfl) fun _ => ?_
  refine .ite ?_ (ignores_pure _)
  refine Ignores.get_bind (fun _ => rfl) fun c => ?_
  have hread : Ignores (ahead more) readHeader := assign_ignores fun _ => rfl
  split
  · exact (send_ignores _).bind fun _ => hread
  · exact hread

-- ================================================================ steps

/-- A handler that ignores the bytes behind leaves them behind. -/
theorem runHandler_ahead {kind : HandlerKind} {m : ConnM PUnit}
    (hm : Ignores (ahead more) m) (c : Connection) :
    runHandler kind m (c.ahead more) = (runHandler kind m c).ahead more := by
  unfold runHandler
  rw [hm c]
  cases m.run c with
  | ok u c' => rfl
  | error e c' => rfl

/-- So does a method called by a user's thread. -/
theorem after_ahead {m : ConnM PUnit} (hm : Ignores (ahead more) m)
    (c : Connection) : after m (c.ahead more) = (after m c).ahead more := by
  rw [after, after, hm c]
  cases m.run c with
  | ok u c' => rfl
  | error e c' => rfl

/-- A read takes the bytes it asked for, and leaves what is behind. -/
theorem transfer_ahead {op : ReadOp}
    (h : transfer host op c = some c') :
    transfer host op (c.ahead more) = some (c'.ahead more) := by
  cases op with
  | header =>
      unfold transfer at h ⊢
      dsimp only at h ⊢
      split at h
      case isTrue => cases h
      case isFalse hlen =>
        have hle : PacketHeader.sizeOf ≤ c.incoming.length := not_lt.mp hlen
        rw [Option.some.injEq] at h
        rw [← h, if_neg]
        · unfold ahead
          dsimp only
          rw [List.take_append_of_le_length hle,
            List.drop_append_of_le_length hle]
        · show ¬ (c.incoming ++ more).length < _
          rw [List.length_append]
          omega
  | body n =>
      unfold transfer at h ⊢
      dsimp only at h ⊢
      split at h
      case isTrue => cases h
      case isFalse hlen =>
        have hle : n ≤ c.incoming.length := not_lt.mp hlen
        rw [Option.some.injEq] at h
        rw [← h, if_neg]
        · unfold ahead
          dsimp only
          rw [List.take_append_of_le_length hle,
            List.drop_append_of_le_length hle]
        · show ¬ (c.incoming ++ more).length < _
          rw [List.length_append]
          omega

/-- What a connection does it would also have done had more bytes
arrived, and left them behind. -/
theorem step_ahead {a : Action} (h : step host ids a c = some c')
    (more : List UInt8) :
    step host ids a (c.ahead more) = some (c'.ahead more) := by
  have hesc : (c.ahead more).escaped = none := (of_step h).1
  rw [step_eq_event hesc]
  have h := (of_step h).2
  cases a with
  | send packet =>
      unfold event at h ⊢
      dsimp only at h ⊢
      rw [send_ignores packet c]
      cases hrun : (send host ids packet).run c with
      | ok u c₁ =>
          rw [hrun] at h
          cases h
          rfl
      | error e c₁ =>
          rw [hrun] at h
          cases h
  | sendBegin packet =>
      unfold event at h ⊢
      dsimp only at h ⊢
      rw [prepare_ignores packet c]
      cases hrun : (prepare host ids packet).run c with
      | ok call c₁ =>
          rw [hrun] at h
          cases h
          rfl
      | error e c₁ =>
          rw [hrun] at h
          cases h
  | sendEnd i =>
      unfold event at h ⊢
      dsimp only at h ⊢
      split at h
      case h_1 call hcall =>
        have hcall' : (c.ahead more).calls[i]? = some call := hcall
        cases h
        rw [hcall']
        rfl
      case h_2 => cases h
  | disconnect =>
      unfold event at h ⊢
      dsimp only at h ⊢
      cases h
      rw [after_ahead disconnect_ignores]
  | posted =>
      unfold event at h ⊢
      dsimp only at h ⊢
      split at h
      case h_1 => cases h
      case h_2 handler rest hposted =>
        have hposted' : (c.ahead more).posted = handler :: rest := hposted
        cases h
        rw [hposted']
        exact congrArg some (runHandler_ahead (runPosted_ignores handler)
          { c with posted := rest })
  | writeDone op ok now =>
      unfold event at h ⊢
      dsimp only at h ⊢
      split at h
      case isTrue hmem =>
        have hmem' : op ∈ (c.ahead more).writes := hmem
        cases h
        rw [if_pos hmem']
        exact congrArg some (runHandler_ahead
          (writeCompleted_ignores op ok now)
          { c with writes := c.writes.erase op })
      case isFalse => cases h
  | readDone op ok now =>
      unfold event at h ⊢
      dsimp only at h ⊢
      split at h
      case isFalse => cases h
      case isTrue hmem =>
        have hmem' : op ∈ (c.ahead more).reads := hmem
        rw [if_pos hmem']
        cases ok with
        | false =>
            cases h
            exact congrArg some (runHandler_ahead
              (readCompleted_ignores op false now)
              { c with reads := c.reads.erase op })
        | true =>
            rw [if_pos rfl] at h ⊢
            obtain ⟨c₁, htransfer, rfl⟩ := Option.map_eq_some_iff.mp h
            have htransfer' := @transfer_ahead host _ _ more op htransfer
            refine (congrArg (Option.map _) htransfer').trans ?_
            exact congrArg some (runHandler_ahead
              (readCompleted_ignores op true now) c₁)
  | connectDone ok leftOpen =>
      unfold event at h ⊢
      dsimp only at h ⊢
      split at h
      case isTrue hc =>
        have hc' : (c.ahead more).connecting = true := hc
        cases h
        rw [if_pos hc']
        exact congrArg some (runHandler_ahead (connectCompleted_ignores ok)
          { c with connecting := false, isOpen := ok || leftOpen })
      case isFalse => cases h

end Connection

end AWEnginePacket
