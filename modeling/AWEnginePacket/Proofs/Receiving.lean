/-
The read loop over a whole stream.

`Reader` places a connection in the byte stream it was started on: in
front of a header, in front of a body, or done reading. The frames
taken off the stream so far are exactly those delivered, in order, and
where no read is outstanding or a handler has thrown, the next frame
says why. Every event keeps it (`reader_step`): a read completion by
what `Outcome` allows, any other event because it leaves the reading
side alone.

`reads_first` is the other direction. On a server's open connection the
read completions alone carry the loop to the first frame that is not
delivered, or of any kind before it, and then the verdict on that frame
comes true. With both, what a stream does to the loop is decided by
that one frame.
-/
import AWEnginePacket.Proofs.Reading
import AWEnginePacket.Lib.Lts

namespace AWEnginePacket

open Endian (ByteOrder)
open Effect

namespace Connection

variable {host : ByteOrder} {ids : PacketIDs} {c c' : Connection}
  {now : TimePoint} {d : PacketDirection} {stream rest : List UInt8}
  {fs : List WireFrame}

-- ================================================== read completions

/-- A header has arrived. -/
def headerArrived (c : Connection) : Connection :=
  { c with reads := c.reads.erase .header
           incoming := c.incoming.drop 4
           mWipInMessage.header := decodeHeader (c.incoming.take 4) }

/-- A body of `n` bytes has arrived. -/
def bodyArrived (n : Nat) (c : Connection) : Connection :=
  { c with reads := c.reads.erase (.body n)
           incoming := c.incoming.drop n
           mWipInMessage.body :=
            c.mWipInMessage.body.store (c.incoming.take n) }

/-- The number of bytes a read asks for. -/
def ReadOp.wants : ReadOp → Nat
  | .header => 4
  | .body n => n

/-- A read that succeeds has got what it asked for. -/
theorem wants_le_of_readDone {op : ReadOp}
    (h : step host ids (.readDone op true now) c = some c') :
    ReadOp.wants op ≤ c.incoming.length := by
  obtain ⟨-, h⟩ := of_step_readDone h
  rw [if_pos rfl] at h
  obtain ⟨c₁, htransfer, -⟩ := h
  by_contra hlt
  have hnone : transfer host op { c with reads := c.reads.erase op } = none := by
    cases op with
    | header => exact if_pos (by show c.incoming.length < 4; exact not_le.mp hlt)
    | body n => exact if_pos (not_le.mp hlt)
  rw [hnone] at htransfer
  cases htransfer

/-- A header and enough bytes behind it are the next frame. -/
theorem next_of_header {hb l : List UInt8} (hlen : hb.length = 4)
    (hbody : (decodeHeader hb).size.toNat ≤ l.length) :
    frames.next (hb ++ l)
      = some ((decodeHeader hb, l.take (decodeHeader hb).size.toNat),
          l.drop (decodeHeader hb).size.toNat) := by
  have hf : frames.IsFrame hb (l.take (decodeHeader hb).size.toNat) := by
    refine ⟨hlen, ?_⟩
    rw [List.length_take]
    exact Nat.min_eq_left hbody
  have h := frames.next_append hf (l.drop (decodeHeader hb).size.toNat)
  rwa [List.append_assoc, List.take_append_drop] at h

/-- `ReadBody()` makes room for the body and asks for as much. -/
theorem runHandler_readBody {b : List UInt8}
    (hbody : c.mWipInMessage.body = ⟨b, 0⟩) :
    ∃ bs, bs.length = c.mWipInMessage.header.size.toNat
      ∧ runHandler .read readBody c
        = { c with
            mWipInMessage.body := ⟨bs, 0⟩
            reads := c.reads ++ [.body c.mWipInMessage.header.size.toNat] } := by
  obtain ⟨n, hn⟩ : ∃ n, n = c.mWipInMessage.header.size.toNat := ⟨_, rfl⟩
  have hlt := c.mWipInMessage.header.size.toNat_lt
  have hbs : (b.take n ++ List.replicate (n - b.length) (0 : UInt8)).length
      = n := by
    rw [List.length_append, List.length_take, List.length_replicate]
    omega
  refine ⟨_, hbs.trans hn, ?_⟩
  have hsize : (PacketBuffer.size
      ⟨b.take n ++ List.replicate (n - b.length) 0, 0⟩).toNat = n := by
    rw [PacketBuffer.size, hbs, UInt32.sub_zero, UInt32.toNat_ofNat',
      Nat.mod_eq_of_lt (by omega)]
  have hresize : c.mWipInMessage.body.resize n
      = ⟨b.take n ++ List.replicate (n - b.length) 0, 0⟩ := by
    rw [hbody]
    rfl
  have hrun : runHandler .read readBody c
      = { c with
          mWipInMessage.body := c.mWipInMessage.body.resize n
          reads := c.reads
            ++ [.body (c.mWipInMessage.body.resize n).size.toNat] } := by
    rw [hn]
    rfl
  rw [hrun, hresize, hsize, ← hn]

/-- A successful header read, in either of its cases. -/
theorem step_headerRead (hesc : c.escaped = none)
    (hmem : .header ∈ c.reads) (hlen : 4 ≤ c.incoming.length) :
    step host ids (.readDone .header true now) c
      = some (runHandler .read
          (if (decodeHeader (c.incoming.take 4)).size = 0 then
            addToIncomingMessageQueue host ids now
          else readBody) (headerArrived c)) := by
  have htake : (c.incoming.take 4).length = 4 := by
    rw [List.length_take]
    omega
  have hheader := receivedHeader_eq host htake
  obtain ⟨c₁, hc₁⟩ : ∃ c₁ : Connection, c₁ =
      { c with reads := c.reads.erase .header
               incoming := c.incoming.drop 4
               mWipInMessage.header :=
                PacketHeader.ofMemory host (c.incoming.take 4) } :=
    ⟨_, rfl⟩
  have htransfer : transfer host .header
      { c with reads := c.reads.erase .header } = some c₁ := by
    have hnot : ¬ c.incoming.length < 4 := by omega
    rw [hc₁]
    exact if_neg hnot
  have hrun : (headerRead host ids true now).run c₁
      = (if (decodeHeader (c.incoming.take 4)).size = 0 then
          addToIncomingMessageQueue host ids now
        else readBody).run (headerArrived c) := by
    unfold headerRead
    rw [EStateM.run_bind, EStateM.run_modify]
    dsimp only
    rw [if_pos rfl, EStateM.run_bind, EStateM.run_get]
    dsimp only
    rw [hc₁]
    dsimp only
    rw [headerArrived, ← hheader]
  rw [step_eq_event hesc]
  unfold event
  dsimp only
  rw [if_pos hmem, if_pos rfl, htransfer, Option.map_some]
  exact congrArg some (runHandler_congr hrun)

/-- A successful body read. -/
theorem step_bodyRead {n : Nat} (hesc : c.escaped = none)
    (hmem : .body n ∈ c.reads) (hlen : n ≤ c.incoming.length) :
    step host ids (.readDone (.body n) true now) c
      = some (if PacketFlags.test c.mWipInMessage.header.flags
            PacketFlags.compressed then
          { bodyArrived n c with isOpen := false }
        else runHandler .read (addToIncomingMessageQueue host ids now)
          (bodyArrived n c)) := by
  have htransfer : transfer host (.body n)
      { c with reads := c.reads.erase (.body n) } = some (bodyArrived n c) := by
    have hnot : ¬ c.incoming.length < n := by omega
    exact if_neg hnot
  rw [step_eq_event hesc]
  unfold event
  dsimp only
  rw [if_pos hmem, if_pos rfl, htransfer, Option.map_some, Option.some.injEq]
  show runHandler .read (bodyRead host ids true now) (bodyArrived n c) = _
  cases hflag : PacketFlags.test c.mWipInMessage.header.flags
      PacketFlags.compressed with
  | true =>
      have hrun := @bodyRead_compressed host ids (bodyArrived n c) now hflag
      rw [if_pos rfl, runHandler, hrun]
  | false =>
      have hrun := @bodyRead_plain host ids (bodyArrived n c) now hflag
      rw [if_neg Bool.false_ne_true]
      exact runHandler_congr hrun

-- ============================================================ the reader

/-- The next frame of `rest` is one with the verdict `v`. -/
def NextIs (ids : PacketIDs) (direction : PacketDirection)
    (rest : List UInt8) (v : Verdict) : Prop :=
  ∃ f rest', frames.next rest = some (f, rest')
    ∧ verdict ids direction f = v

/-- What is awaited in front of `rest`, with `body` in the message being
assembled. -/
inductive Awaiting (c : Connection) (body : List UInt8) : List UInt8 → Prop
  | header (hreads : c.reads = [.header])
      (hbody : c.mWipInMessage.body = ⟨body, 0⟩) : Awaiting c body c.incoming
  | body (hb bs : List UInt8) (hlen : hb.length = 4)
      (hsize : (decodeHeader hb).size ≠ 0)
      (hheader : c.mWipInMessage.header = decodeHeader hb)
      (hreads : c.reads = [.body (decodeHeader hb).size.toNat])
      (hbody : c.mWipInMessage.body = ⟨bs, 0⟩)
      (hbs : bs.length = (decodeHeader hb).size.toNat) :
      Awaiting c body (hb ++ c.incoming)
  | done (rest : List UInt8) (hreads : c.reads = []) : Awaiting c body rest

/-- A connection reading `stream` has taken and delivered the frames
`fs`, and stands in front of `rest`. -/
structure Placed (ids : PacketIDs) (d : PacketDirection)
    (stream : List UInt8) (c : Connection) (fs : List WireFrame)
    (rest : List UInt8) : Prop where
  cursor : frames.Cursor stream fs rest
  delivered : ∀ f ∈ fs, verdict ids c.mDirection f = .deliver
  messages : c.mMessagesIn = (Inbox.of c.owner fs).messages
  connecting : c.connecting = false
  direction : c.mDirection = d

/-- The read loop of a connection, between two events. -/
structure Reader (ids : PacketIDs) (d : PacketDirection)
    (stream : List UInt8) (c : Connection) (fs : List WireFrame)
    (rest : List UInt8) : Prop
    extends Placed ids d stream c fs rest where
  awaiting : Awaiting c (Inbox.of c.owner fs).body rest
  /-- An open connection that reads no more is stalled. -/
  idle : c.reads = [] → c.isOpen = true → c.escaped = none →
    NextIs ids c.mDirection rest .stall
  /-- A server's read handler throws over the next frame. -/
  thrown : ∀ e, c.escaped = some (.read, e) → c.mDirection = .toClient →
    NextIs ids c.mDirection rest .fault

/-- A connection that has just begun to read `stream`. -/
structure Listening (stream : List UInt8) (c : Connection) : Prop where
  reads : c.reads = [.header]
  incoming : c.incoming = stream
  messagesIn : c.mMessagesIn = []
  body : c.mWipInMessage.body = {}
  isOpen : c.isOpen = true
  connecting : c.connecting = false
  escaped : c.escaped = none

/-- The place in the stream depends on the reading side only. -/
theorem Placed.of_readSide (h : Placed ids d stream c fs rest)
    (hside : c'.readSide = c.readSide) : Placed ids d stream c' fs rest := by
  simp only [readSide, Prod.mk.injEq] at hside
  obtain ⟨-, -, -, hmsgs, hdir, hself, -, hconn⟩ := hside
  have howner : c'.owner = c.owner := by
    rw [owner, owner, hdir, hself]
  refine ⟨h.cursor, ?_, ?_, hconn.trans h.connecting,
    hdir.trans h.direction⟩
  · rw [hdir]
    exact h.delivered
  · rw [hmsgs, howner]
    exact h.messages

/-- So does what is awaited. -/
theorem Awaiting.of_readSide {body : List UInt8} (h : Awaiting c body rest)
    (hside : c'.readSide = c.readSide) : Awaiting c' body rest := by
  simp only [readSide, Prod.mk.injEq] at hside
  obtain ⟨hreads, hin, hwip, -⟩ := hside
  cases h with
  | header hr hb =>
      rw [← hin]
      exact .header (hreads.trans hr) (by rw [hwip, hb])
  | body hb bs hlen hsize hheader hr hbody hbs =>
      rw [← hin]
      exact .body hb bs hlen hsize (by rw [hwip, hheader]) (hreads.trans hr)
        (by rw [hwip, hbody]) hbs
  | done rest hr => exact .done rest (hreads.trans hr)

/-- At most one read is outstanding. -/
theorem Awaiting.erase_eq_nil {body : List UInt8} {op : ReadOp}
    (h : Awaiting c body rest) (hmem : op ∈ c.reads) :
    c.reads.erase op = [] := by
  have hone {op' : ReadOp} (hreads : c.reads = [op']) :
      c.reads.erase op = [] := by
    rw [hreads, List.mem_singleton] at hmem
    rw [hreads, hmem, List.erase_cons_head]
  cases h with
  | header hreads hbody => exact hone hreads
  | body hb bs hlen hsize hheader hreads hbody hbs => exact hone hreads
  | done rest hreads =>
      rw [hreads] at hmem
      cases hmem

/-- A body is awaited behind its header, in a buffer of its size. -/
theorem Awaiting.of_mem_body {body : List UInt8} {n : Nat}
    (h : Awaiting c body rest) (hmem : .body n ∈ c.reads) :
    ∃ hb bs, hb.length = 4 ∧ rest = hb ++ c.incoming
      ∧ c.mWipInMessage.header = decodeHeader hb
      ∧ n = (decodeHeader hb).size.toNat
      ∧ c.mWipInMessage.body = ⟨bs, 0⟩ ∧ bs.length = n := by
  cases h with
  | header hreads hbody =>
      rw [hreads] at hmem
      simp at hmem
  | body hb bs hlen hsize hheader hreads hbody hbs =>
      rw [hreads, List.mem_singleton] at hmem
      injection hmem with hmem
      exact ⟨hb, bs, hlen, rfl, hheader, hmem, hbody, hbs.trans hmem.symm⟩
  | done rest hreads =>
      rw [hreads] at hmem
      cases hmem

theorem Listening.reader (h : Listening stream c) :
    Reader ids c.mDirection stream c [] stream := by
  have hawait : Awaiting c [] c.incoming := .header h.reads h.body
  rw [h.incoming] at hawait
  refine ⟨⟨.start, ?_, h.messagesIn, h.connecting, rfl⟩, hawait, ?_, ?_⟩
  · intro f hf
    cases hf
  · intro hreads
    rw [h.reads] at hreads
    cases hreads
  · intro e he
    rw [h.escaped] at he
    cases he

/-- Nothing on the reading side happened, and no read handler threw. -/
theorem Reader.of_readSide (h : Reader ids d stream c fs rest)
    (hside : c'.readSide = c.readSide)
    (hopen : c'.isOpen = true → c.isOpen = true)
    (hesc : c.escaped = none) (hread : ∀ e, c'.escaped ≠ some (.read, e)) :
    Reader ids d stream c' fs rest := by
  have hdir : c'.mDirection = c.mDirection := by
    simp only [readSide, Prod.mk.injEq] at hside
    exact hside.2.2.2.2.1
  have howner : c'.owner = c.owner := by
    simp only [readSide, Prod.mk.injEq] at hside
    rw [owner, owner, hdir, hside.2.2.2.2.2.1]
  have hreads : c'.reads = c.reads := congrArg Prod.fst hside
  refine ⟨h.toPlaced.of_readSide hside, ?_, ?_, ?_⟩
  · rw [howner]
    exact h.awaiting.of_readSide hside
  · intro hr ho _
    rw [hdir]
    exact h.idle (hreads.symm.trans hr) (hopen ho) hesc
  · intro e he
    exact absurd he (hread e)

/-- The last frame: no read is outstanding after it. -/
theorem Placed.last (h : Placed ids d stream c fs rest) (hreads : c.reads = [])
    (hside : c'.readSide = c.readSide)
    (hidle : c'.isOpen = true → c'.escaped = none →
      NextIs ids c.mDirection rest .stall)
    (hthrown : ∀ e, c'.escaped = some (.read, e) → c.mDirection = .toClient →
      NextIs ids c.mDirection rest .fault) :
    Reader ids d stream c' fs rest := by
  have hdir : c'.mDirection = c.mDirection := by
    simp only [readSide, Prod.mk.injEq] at hside
    exact hside.2.2.2.2.1
  have hreads' : c'.reads = [] := (congrArg Prod.fst hside).trans hreads
  refine ⟨h.of_readSide hside, .done rest hreads', ?_, ?_⟩
  · intro _
    rw [hdir]
    exact hidle
  · rw [hdir]
    exact hthrown

/-- A delivered frame moves the reader on. -/
theorem Placed.pushed {f : WireFrame} (h : Placed ids d stream c fs rest)
    (hreads : c.reads = []) (hesc : c.escaped = none)
    (hnext : frames.next rest = some (f, c.incoming))
    (hheader : c.mWipInMessage.header = f.1)
    (hbody : c.mWipInMessage.body
      = ⟨((Inbox.of c.owner fs).take c.owner f).body, 0⟩)
    (hv : verdict ids c.mDirection f = .deliver) :
    Reader ids d stream c.pushed (fs ++ [f]) c.incoming := by
  have hone := Inbox.of_append_singleton c.owner fs f
  have hwip : c.mWipInMessage
      = ⟨f.1, ⟨((Inbox.of c.owner fs).take c.owner f).body, 0⟩⟩ := by
    rw [← hheader, ← hbody]
  have hawait : Awaiting c.pushed (Inbox.of c.owner (fs ++ [f])).body
      c.pushed.incoming := by
    refine .header ?_ ?_
    · rw [Connection.pushed, hreads]
      rfl
    · rw [hone]
      exact hbody
  refine ⟨⟨h.cursor.advance hnext, ?_, ?_, h.connecting, h.direction⟩, hawait,
    ?_, ?_⟩
  · intro g hg
    rcases List.mem_append.mp hg with hg | hg
    · exact h.delivered g hg
    · rw [List.mem_singleton.mp hg]
      exact hv
  · show c.mMessagesIn ++ [⟨c.owner, c.mWipInMessage⟩]
      = (Inbox.of c.owner (fs ++ [f])).messages
    rw [hone, h.messages, hwip]
    rfl
  · intro hr
    rw [Connection.pushed, hreads] at hr
    cases hr
  · intro e he
    exact absurd (hesc.symm.trans he) (by simp)

/-- A complete frame moves the reader on, or is the last. -/
theorem reader_of_outcome {f : WireFrame}
    (h : Placed ids d stream c fs rest) (hreads : c.reads = [])
    (hesc : c.escaped = none)
    (hnext : frames.next rest = some (f, c.incoming))
    (hheader : c.mWipInMessage.header = f.1)
    (hbody : c.mWipInMessage.body
      = ⟨((Inbox.of c.owner fs).take c.owner f).body, 0⟩)
    (ho : Outcome ids f c c') :
    ∃ fs' rest', Reader ids d stream c' fs' rest' ∧ fs <+: fs' := by
  cases ho with
  | delivered hv hrel =>
      obtain ⟨hside, hopen, hesc'⟩ := hrel
      have hreader := h.pushed hreads hesc hnext hheader hbody hv
      refine ⟨fs ++ [f], c.incoming, hreader.of_readSide hside ?_ hesc ?_,
        List.prefix_append fs [f]⟩
      · intro ho
        rwa [hopen] at ho
      · intro e he
        rw [hesc'] at he
        exact absurd (hesc.symm.trans he) (by simp)
  | closed hv hc' =>
      refine ⟨fs, rest, h.last hreads (by rw [hc']; rfl) ?_ ?_,
        List.prefix_rfl⟩
      · intro hopen
        rw [hc'] at hopen
        cases hopen
      · intro e he
        rw [hc'] at he
        exact absurd (hesc.symm.trans he) (by simp)
  | thrown e c₁ hv hrel hc' =>
      refine ⟨fs, rest, h.last hreads (by rw [hc']; exact hrel.1) ?_ ?_,
        List.prefix_rfl⟩
      · intro _ he
        rw [hc'] at he
        cases he
      · intro _ _ hdir
        exact ⟨f, c.incoming, hnext, hv hdir⟩
  | stalled hv hrel =>
      refine ⟨fs, rest, h.last hreads hrel.1 ?_ ?_, List.prefix_rfl⟩
      · intro _ _
        exact ⟨f, c.incoming, hnext, hv⟩
      · intro e he
        rw [hrel.2.2] at he
        exact absurd (hesc.symm.trans he) (by simp)

-- ============================================================== steps

/-- A read completion, as against every other event. -/
def isRead : Action → Bool
  | .readDone _ _ _ => true
  | _ => false

theorem post_readSide (call : SendCall) :
    (after (post call) c).readSide = c.readSide
      ∧ (after (post call) c).isOpen = c.isOpen
      ∧ (after (post call) c).escaped = c.escaped := ⟨rfl, rfl, rfl⟩

/-- A handler that keeps to the writing side. -/
theorem runHandler_readSide {kind : HandlerKind} {m : ConnM PUnit}
    (hm : Keeps writeFrame m) (hkind : kind ≠ .read)
    (hesc : c.escaped = none) :
    (runHandler kind m c).readSide = c.readSide
      ∧ ((runHandler kind m c).isOpen = true → c.isOpen = true)
      ∧ ∀ e, (runHandler kind m c).escaped ≠ some (.read, e) := by
  obtain ⟨hapart, hopen⟩ := @runHandler_apart kind m hm c
  refine ⟨of_apart readSide (fun _ => rfl) hapart, hopen, ?_⟩
  intro e he
  rcases runHandler_cases kind m c with ⟨h, -⟩ | ⟨e', -, h⟩
  · rw [h, (hm c).2.1, hesc] at he
    cases he
  · rw [h] at he
    injection he with he
    injection he with he
    exact hkind he

/-- Events other than read completions leave the reading side alone. -/
theorem step_readSide {a : Action} (hconn : c.connecting = false)
    (ha : isRead a = false) (hs : step host ids a c = some c') :
    c'.readSide = c.readSide ∧ (c'.isOpen = true → c.isOpen = true)
      ∧ ∀ e, c'.escaped ≠ some (.read, e) := by
  have hesc := (of_step hs).1
  -- what `Send` does up to its post is in the frame
  have hquiet {c₁ c₂ : Connection} (h₁ : readFrame.rel c c₁)
      (h₂ : readFrame.rel c₁ c₂) :
      c₂.readSide = c.readSide ∧ (c₂.isOpen = true → c.isOpen = true)
        ∧ ∀ e, c₂.escaped ≠ some (.read, e) := by
    obtain ⟨hside, hopen, he⟩ := readFrame.trans h₁ h₂
    refine ⟨hside, fun ho => hopen ▸ ho, ?_⟩
    rw [he, hesc]
    simp
  cases a with
  | send packet =>
      obtain ⟨call, -, -, -, rfl⟩ := of_step_send hs
      exact hquiet (remembered_readFrame c call.info) (post_readSide call)
  | sendBegin packet =>
      obtain ⟨call, -, -, -, rfl⟩ := of_step_sendBegin hs
      exact hquiet (remembered_readFrame c call.info) ⟨rfl, rfl, rfl⟩
  | sendEnd i =>
      obtain ⟨call, -, rfl⟩ := of_step_sendEnd hs
      exact hquiet (readFrame.refl c) ⟨rfl, rfl, rfl⟩
  | disconnect =>
      rcases of_step_disconnect hs with rfl | rfl
      · exact hquiet (readFrame.refl _) (readFrame.refl _)
      · exact hquiet (readFrame.refl c) ⟨rfl, rfl, rfl⟩
  | posted =>
      obtain ⟨handler, handlers, -, rfl⟩ := of_step_posted hs
      exact @runHandler_readSide { c with posted := handlers } .posted _
        (runPosted_keeps handler) (by simp) hesc
  | writeDone op ok now =>
      obtain ⟨-, rfl⟩ := of_step_writeDone hs
      exact @runHandler_readSide { c with writes := c.writes.erase op } .write _
        (writeCompleted_keeps op ok now) (by simp) hesc
  | readDone op ok now => cases ha
  | connectDone ok leftOpen =>
      have hc := (of_step_connectDone hs).1
      rw [hconn] at hc
      cases hc

-- ====================================================== complete frames

/-- A header without a body is a complete frame. -/
theorem outcome_headerRead {b : List UInt8} (hesc : c.escaped = none)
    (hreads : c.reads = [.header]) (hbody : c.mWipInMessage.body = ⟨b, 0⟩)
    (hlen : 4 ≤ c.incoming.length)
    (hsize : (decodeHeader (c.incoming.take 4)).size = 0) :
    ∃ c', step host ids (.readDone .header true now) c = some c'
      ∧ Outcome ids (decodeHeader (c.incoming.take 4), []) (headerArrived c)
        c' := by
  have hcomplete : Complete (headerArrived c)
      (decodeHeader (c.incoming.take 4), []) b := by
    refine ⟨rfl, hbody, ?_, ?_⟩
    · intro hne
      exact absurd rfl hne
    · rw [hsize]
      rfl
  have hstep := @step_headerRead host ids c now hesc (by rw [hreads]; simp) hlen
  rw [if_pos hsize] at hstep
  refine ⟨_, hstep, outcome_of_complete hcomplete fun hcompressed => ?_⟩
  exact hcompressed.1 hsize

/-- A header with a size is awaited by a body read. -/
theorem awaiting_headerRead {b : List UInt8} (hesc : c.escaped = none)
    (hreads : c.reads = [.header]) (hbody : c.mWipInMessage.body = ⟨b, 0⟩)
    (hlen : 4 ≤ c.incoming.length)
    (hsize : (decodeHeader (c.incoming.take 4)).size ≠ 0) :
    ∃ bs, bs.length = (decodeHeader (c.incoming.take 4)).size.toNat
      ∧ step host ids (.readDone .header true now) c
        = some { headerArrived c with
            mWipInMessage.body := ⟨bs, 0⟩
            reads := [.body (decodeHeader (c.incoming.take 4)).size.toNat] } := by
  have hnone : (headerArrived c).reads = [] := by
    rw [headerArrived, hreads]
    rfl
  obtain ⟨bs, hbs, hstate⟩ := @runHandler_readBody (headerArrived c) b hbody
  refine ⟨bs, hbs, ?_⟩
  have hstep := @step_headerRead host ids c now hesc (by rw [hreads]; simp) hlen
  rw [if_neg hsize, hstate, hnone] at hstep
  exact hstep

/-- The bytes read fill the body that was resized to take them. -/
theorem bodyArrived_body {n : Nat} {bs : List UInt8}
    (hbody : c.mWipInMessage.body = ⟨bs, 0⟩) (hbs : bs.length = n)
    (hlen : n ≤ c.incoming.length) :
    (bodyArrived n c).mWipInMessage.body = ⟨c.incoming.take n, 0⟩ := by
  have htake : (c.incoming.take n).length = n := by
    rw [List.length_take]
    omega
  show c.mWipInMessage.body.store (c.incoming.take n) = _
  rw [hbody, PacketBuffer.store]
  simp [htake, hbs]

/-- A header and its body are a complete frame. -/
theorem outcome_bodyRead {n : Nat} {h : PacketHeader} {bs : List UInt8}
    (hesc : c.escaped = none) (hreads : c.reads = [.body n])
    (hheader : c.mWipInMessage.header = h) (hsize : h.size ≠ 0)
    (hn : n = h.size.toNat) (hbody : c.mWipInMessage.body = ⟨bs, 0⟩)
    (hbs : bs.length = n) (hlen : n ≤ c.incoming.length) :
    ∃ c', step host ids (.readDone (.body n) true now) c = some c'
      ∧ Outcome ids (h, c.incoming.take n) (bodyArrived n c) c' := by
  have hstore := bodyArrived_body hbody hbs hlen
  have htake : (c.incoming.take n).length = n := by
    rw [List.length_take]
    omega
  have hstep := @step_bodyRead host ids c now n hesc (by rw [hreads]; simp) hlen
  rw [hheader] at hstep
  cases hflag : PacketFlags.test h.flags PacketFlags.compressed with
  | true =>
      rw [hflag, if_pos rfl] at hstep
      refine ⟨_, hstep, .closed ?_ rfl⟩
      rw [verdict, if_pos ⟨hsize, hflag⟩]
  | false =>
      have hcomplete : Complete (bodyArrived n c) (h, c.incoming.take n)
          (c.incoming.take n) :=
        ⟨hheader, hstore, fun _ => rfl, htake.trans hn⟩
      rw [hflag, if_neg Bool.false_ne_true] at hstep
      refine ⟨_, hstep, outcome_of_complete hcomplete fun hcompressed => ?_⟩
      rw [hflag] at hcompressed
      exact Bool.false_ne_true hcompressed.2

/-- The end of a header's reading. -/
theorem reader_headerRead (h : Reader ids d stream c fs c.incoming)
    (hesc : c.escaped = none) (hreads : c.reads = [.header])
    (hbody : c.mWipInMessage.body = ⟨(Inbox.of c.owner fs).body, 0⟩)
    (hs : step host ids (.readDone .header true now) c = some c') :
    ∃ fs' rest', Reader ids d stream c' fs' rest' ∧ fs <+: fs' := by
  have hlen : 4 ≤ c.incoming.length := wants_le_of_readDone hs
  have htake : (c.incoming.take 4).length = 4 := by
    rw [List.length_take]
    omega
  have hcut : c.incoming.take 4 ++ c.incoming.drop 4 = c.incoming :=
    List.take_append_drop 4 c.incoming
  have hplaced : Placed ids d stream (headerArrived c) fs c.incoming :=
    ⟨h.cursor, h.delivered, h.messages, h.connecting, h.direction⟩
  have hnone : (headerArrived c).reads = [] := by
    rw [headerArrived, hreads]
    rfl
  by_cases hsize : (decodeHeader (c.incoming.take 4)).size = 0
  · have hnext := @next_of_header (c.incoming.take 4) (c.incoming.drop 4)
      htake (by rw [hsize]; exact Nat.zero_le _)
    rw [hcut, hsize] at hnext
    obtain ⟨c₁, hstep, ho⟩ :=
      @outcome_headerRead host ids c now _ hesc hreads hbody hlen hsize
    rw [hstep, Option.some.injEq] at hs
    subst hs
    exact reader_of_outcome hplaced hnone hesc hnext rfl hbody ho
  · obtain ⟨bs, hbs, hstep⟩ :=
      @awaiting_headerRead host ids c now _ hesc hreads hbody hlen hsize
    rw [hstep, Option.some.injEq] at hs
    subst hs
    refine ⟨fs, c.incoming,
      ⟨⟨h.cursor, h.delivered, h.messages, h.connecting, h.direction⟩, ?_, ?_,
        ?_⟩, List.prefix_rfl⟩
    · have hawait : Awaiting
          { headerArrived c with
              mWipInMessage.body := ⟨bs, 0⟩
              reads := [.body (decodeHeader (c.incoming.take 4)).size.toNat] }
          (Inbox.of c.owner fs).body
          (c.incoming.take 4 ++ c.incoming.drop 4) :=
        .body (c.incoming.take 4) bs htake hsize rfl rfl rfl hbs
      rwa [hcut] at hawait
    · intro hnil
      cases hnil
    · intro e he
      exact absurd (hesc.symm.trans he) (by simp)

/-- The end of a body's reading. -/
theorem reader_bodyRead {hb bs : List UInt8}
    (h : Reader ids d stream c fs (hb ++ c.incoming))
    (hesc : c.escaped = none) (hlen : hb.length = 4)
    (hsize : (decodeHeader hb).size ≠ 0)
    (hheader : c.mWipInMessage.header = decodeHeader hb)
    (hreads : c.reads = [.body (decodeHeader hb).size.toNat])
    (hbody : c.mWipInMessage.body = ⟨bs, 0⟩)
    (hbs : bs.length = (decodeHeader hb).size.toNat)
    (hs : step host ids (.readDone (.body (decodeHeader hb).size.toNat) true
      now) c = some c') :
    ∃ fs' rest', Reader ids d stream c' fs' rest' ∧ fs <+: fs' := by
  have hle : (decodeHeader hb).size.toNat ≤ c.incoming.length :=
    wants_le_of_readDone hs
  have hnext := next_of_header hlen hle
  have hpos : (decodeHeader hb).size.toNat ≠ 0 := by
    intro hzero
    exact hsize (UInt16.toNat_inj.mp hzero)
  obtain ⟨n, hn⟩ : ∃ n, n = (decodeHeader hb).size.toNat := ⟨_, rfl⟩
  rw [← hn] at hle hnext hpos hreads hbs hs
  have hplaced : Placed ids d stream (bodyArrived n c) fs (hb ++ c.incoming) :=
    ⟨h.cursor, h.delivered, h.messages, h.connecting, h.direction⟩
  have hnone : (bodyArrived n c).reads = [] := by
    rw [bodyArrived, hreads]
    simp
  have hne : c.incoming.take n ≠ [] := by
    intro hnil
    have := congrArg List.length hnil
    rw [List.length_take, List.length_nil] at this
    omega
  have hown : (bodyArrived n c).mWipInMessage.body
      = ⟨((Inbox.of c.owner fs).take c.owner
          (decodeHeader hb, c.incoming.take n)).body, 0⟩ := by
    rw [bodyArrived_body hbody hbs hle, Inbox.take, if_neg hne]
  obtain ⟨c₁, hstep, ho⟩ := @outcome_bodyRead host ids c now n _ bs hesc hreads
    hheader hsize hn hbody hbs hle
  rw [hstep, Option.some.injEq] at hs
  subst hs
  exact reader_of_outcome hplaced hnone hesc hnext hheader hown ho

/-- A read completion moves the reader on, or is the last. -/
theorem reader_readDone {op : ReadOp} {ok : Bool}
    (h : Reader ids d stream c fs rest)
    (hs : step host ids (.readDone op ok now) c = some c') :
    ∃ fs' rest', Reader ids d stream c' fs' rest' ∧ fs <+: fs' := by
  have hesc := (of_step hs).1
  have hmem := (of_step_readDone hs).1
  cases ok with
  | false =>
      obtain ⟨-, msg, rfl⟩ := of_step_readFailed hs
      have hplaced : Placed ids d stream
          { c with reads := c.reads.erase op, mWipInMessage := msg } fs rest :=
        ⟨h.cursor, h.delivered, h.messages, h.connecting, h.direction⟩
      have hnone := h.awaiting.erase_eq_nil hmem
      refine ⟨fs, rest, hplaced.last hnone rfl ?_ ?_, List.prefix_rfl⟩
      · intro hopen
        cases hopen
      · intro e he
        exact absurd (hesc.symm.trans he) (by simp)
  | true =>
      cases hawait : h.awaiting with
      | header hreads hbody =>
          rw [hreads, List.mem_singleton] at hmem
          subst hmem
          exact reader_headerRead h hesc hreads hbody hs
      | body hb bs hlen hsize hheader hreads hbody hbs =>
          rw [hreads, List.mem_singleton] at hmem
          subst hmem
          exact reader_bodyRead h hesc hlen hsize hheader hreads hbody hbs hs
      | done rest hreads =>
          rw [hreads] at hmem
          cases hmem

/-- Every event keeps the reader, and the frames it has taken. -/
theorem reader_step {a : Action} (h : Reader ids d stream c fs rest)
    (hs : step host ids a c = some c') :
    ∃ fs' rest', Reader ids d stream c' fs' rest' ∧ fs <+: fs' := by
  cases ha : isRead a with
  | false =>
      obtain ⟨hside, hopen, hread⟩ := step_readSide h.connecting ha hs
      exact ⟨fs, rest, h.of_readSide hside hopen (of_step hs).1 hread,
        List.prefix_rfl⟩
  | true =>
      cases a with
      | readDone op ok now => exact reader_readDone h hs
      | _ => cases ha

/-- Every run keeps the reader. -/
theorem reader_run {c₀ : Connection} {acts : List Action}
    (h₀ : Listening stream c₀)
    (hrun : Lts.run (step host ids) c₀ acts = some c) :
    ∃ fs rest, Reader ids c₀.mDirection stream c fs rest := by
  refine Lts.run_invariant
    (fun c => ∃ fs rest, Reader ids c₀.mDirection stream c fs rest) ?_
    ⟨[], stream, h₀.reader⟩ hrun
  intro c a c' h hs
  obtain ⟨fs, rest, hr⟩ := h
  obtain ⟨fs', rest', hr', -⟩ := reader_step hr hs
  exact ⟨fs', rest', hr'⟩

-- =========================================================== progress

/-- An open connection with the reads `ops` outstanding, in front of
`rest`. -/
structure Poised (ops : List ReadOp) (c : Connection) (rest : List UInt8) :
    Prop where
  reads : c.reads = ops
  incoming : c.incoming = rest
  body : ∃ b, c.mWipInMessage.body = ⟨b, 0⟩
  isOpen : c.isOpen = true
  escaped : c.escaped = none

theorem Listening.poised (h : Listening stream c) :
    Poised [.header] c stream :=
  ⟨h.reads, h.incoming, ⟨[], h.body⟩, h.isOpen, h.escaped⟩

/-- A header and the body behind it can be read, one after the other. -/
theorem body_run {h : PacketHeader} {body rest' : List UInt8}
    (hp : Poised [.header] c rest) (hle : 4 ≤ rest.length)
    (hh : decodeHeader (rest.take 4) = h) (hdrop : rest.drop 4 = body ++ rest')
    (hbody : body.length = h.size.toNat) (hsize : h.size ≠ 0) :
    ∃ acts c₁ c', Lts.run (step host ids) c acts = some c'
      ∧ Poised [] c₁ rest' ∧ c₁.mDirection = c.mDirection
      ∧ c₁.mWipInMessage.header = h ∧ Outcome ids (h, body) c₁ c' := by
  obtain ⟨b, hwip⟩ := hp.body
  have hin := hp.incoming
  obtain ⟨bs, hbs, hstep⟩ := @awaiting_headerRead host ids c 0 b hp.escaped
    hp.reads hwip (by rw [hin]; exact hle)
    (by rw [hin, hh]; exact hsize)
  rw [hin, hh] at hbs hstep
  obtain ⟨c₁, hc₁⟩ : ∃ c₁ : Connection, c₁ = { headerArrived c with
      mWipInMessage.body := ⟨bs, 0⟩, reads := [.body h.size.toNat] } :=
    ⟨_, rfl⟩
  rw [← hc₁] at hstep
  have hin₁ : c₁.incoming = body ++ rest' := by
    rw [hc₁, ← hdrop, ← hin]
    rfl
  have hheader₁ : c₁.mWipInMessage.header = h := by
    rw [hc₁, ← hh, ← hin]
    rfl
  have hbody₁ : c₁.mWipInMessage.body = ⟨bs, 0⟩ := by rw [hc₁]
  have hreads₁ : c₁.reads = [.body body.length] := by
    rw [hc₁, hbody]
  have hesc₁ : c₁.escaped = none := by
    rw [hc₁]
    exact hp.escaped
  have hle₁ : body.length ≤ c₁.incoming.length := by
    rw [hin₁, List.length_append]
    omega
  obtain ⟨c', hstep', ho⟩ := @outcome_bodyRead host ids c₁ 0 body.length h bs
    hesc₁ hreads₁ hheader₁ hsize hbody hbody₁ (hbs.trans hbody.symm) hle₁
  rw [hin₁, List.take_left] at ho
  refine ⟨[.readDone .header true 0, .readDone (.body body.length) true 0],
    bodyArrived body.length c₁, c',
    Lts.run_cons hstep (Lts.run_singleton.mpr hstep'), ⟨?_, ?_, ?_, ?_, ?_⟩,
    ?_, hheader₁, ho⟩
  · rw [bodyArrived, hreads₁]
    simp
  · show c₁.incoming.drop body.length = rest'
    rw [hin₁, List.drop_left]
  · exact ⟨_, bodyArrived_body hbody₁ (hbs.trans hbody.symm) hle₁⟩
  · show c₁.isOpen = true
    rw [hc₁]
    exact hp.isOpen
  · exact hesc₁
  · show c₁.mDirection = c.mDirection
    rw [hc₁]
    rfl

/-- The next frame can be read to its end. -/
theorem frame_run {f : WireFrame} {rest' : List UInt8}
    (h : Poised [.header] c rest)
    (hnext : frames.next rest = some (f, rest')) :
    ∃ acts c₁ c', Lts.run (step host ids) c acts = some c'
      ∧ Poised [] c₁ rest' ∧ c₁.mDirection = c.mDirection
      ∧ c₁.mWipInMessage.header = f.1 ∧ Outcome ids f c₁ c' := by
  obtain ⟨h', body⟩ := f
  obtain ⟨hb, hcut, hf, hdec⟩ := frames.next_eq_some_iff.mp hnext
  have hlen : hb.length = 4 := hf.header_length
  have hdec : decodeHeader hb = h' := hdec
  rw [List.append_assoc] at hcut
  have hh : decodeHeader (rest.take 4) = h' := by
    rw [hcut, ← hlen, List.take_left, hdec]
  have hdrop : rest.drop 4 = body ++ rest' := by
    rw [hcut, ← hlen, List.drop_left]
  have hle : 4 ≤ rest.length := by
    rw [hcut, List.length_append]
    omega
  have hbody : body.length = h'.size.toNat := by
    rw [← hdec]
    exact hf.body_length
  by_cases hsize : h'.size = 0
  · have hin := h.incoming
    obtain ⟨b, hwip⟩ := h.body
    obtain ⟨c', hstep, ho⟩ := @outcome_headerRead host ids c 0 b h.escaped
      h.reads hwip (by rw [hin]; exact hle)
      (by rw [hin, hh]; exact hsize)
    have hnil : body = [] := by
      rw [hsize] at hbody
      exact List.length_eq_zero_iff.mp hbody
    rw [hin, hh] at ho
    subst hnil
    refine ⟨[.readDone .header true 0], headerArrived c, c',
      Lts.run_singleton.mpr hstep, ⟨?_, ?_, ⟨b, hwip⟩, h.isOpen, h.escaped⟩,
      rfl, ?_, ho⟩
    · rw [headerArrived, h.reads]
      rfl
    · show c.incoming.drop 4 = rest'
      rw [hin]
      exact hdrop
    · show decodeHeader (c.incoming.take 4) = h'
      rw [hin, hh]
  · exact body_run h hle hh hdrop hbody hsize

/-- A frame that ends a server's reading, or its delivery. -/
def endsReading (ids : PacketIDs) (direction : PacketDirection)
    (f : WireFrame) : Bool :=
  verdict ids direction f != .deliver

/-- Any other frame is delivered. -/
theorem deliver_of_not_endsReading {f : WireFrame}
    (h : endsReading ids d f = false) : verdict ids d f = .deliver := by
  rw [endsReading, bne_eq_false_iff_eq] at h
  exact h

/-- A server's read completions reach the first frame of a kind, as long
as all others are delivered. -/
theorem reads_first {f : WireFrame} {p : WireFrame → Bool}
    (h : Poised [.header] c rest) (hdir : c.mDirection = .toClient)
    (hp : ∀ g, p g = false → verdict ids .toClient g = .deliver)
    (hfind : (frames.split rest).1.find? p = some f) :
    ∃ acts c₁ c' rest', Lts.run (step host ids) c acts = some c'
      ∧ Poised [] c₁ rest' ∧ c₁.mDirection = .toClient
      ∧ c₁.mWipInMessage.header = f.1 ∧ Outcome ids f c₁ c' := by
  induction rest using frames.stream_induction generalizing c with
  | tail rest hn =>
      rw [frames.split_of_next_none hn] at hfind
      cases hfind
  | frame rest g rest' hn ih =>
      obtain ⟨acts, c₁, c', hrun, hpoised, hdir₁, hheader, ho⟩ :=
        @frame_run host ids c rest g rest' h hn
      rw [hdir] at hdir₁
      rw [frames.split_of_next_some hn, List.find?_cons] at hfind
      cases hg : p g with
      | true =>
          rw [hg, Option.some.injEq] at hfind
          subst hfind
          exact ⟨acts, c₁, c', rest', hrun, hpoised, hdir₁, hheader, ho⟩
      | false =>
          rw [hg] at hfind
          have hv : verdict ids c₁.mDirection g = .deliver := by
            rw [hdir₁]
            exact hp g hg
          -- the frame is delivered, and the next one is awaited
          have hnext : Poised [.header] c' rest'
              ∧ c'.mDirection = .toClient := by
            cases ho with
            | delivered _ hrel =>
                obtain ⟨hside, hopen, hesc⟩ := hrel
                simp only [readSide, Prod.mk.injEq] at hside
                obtain ⟨hreads, hin, hwip, -, hdir', -⟩ := hside
                refine ⟨⟨?_, hin.trans hpoised.incoming, ?_,
                  hopen.trans hpoised.isOpen, hesc.trans hpoised.escaped⟩,
                  hdir'.trans hdir₁⟩
                · rw [hreads, pushed, hpoised.reads]
                  rfl
                · rw [hwip]
                  exact hpoised.body
            | closed hv' => rw [hv] at hv'; cases hv'
            | thrown e c₂ hv' => rw [hv] at hv'; cases hv' hdir₁
            | stalled hv' => rw [hv] at hv'; cases hv'
          obtain ⟨acts', c₂, c'', rest'', hrun', hrest⟩ :=
            ih hnext.1 hnext.2 hfind
          exact ⟨acts ++ acts', c₂, c'', rest'', Lts.run_append hrun hrun',
            hrest⟩

end Connection

end AWEnginePacket
