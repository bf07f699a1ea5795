/-
What a peer's stream does to a connection.

Each of the three results below is decided by the frames of the stream,
as the receiver's rule splits it.

- A message is delivered with its own body if and only if it has one,
  or nothing delivered before it had (`delivers_own_body_iff`).
- A read handler of a server's connection can throw if and only if the
  first frame that it does not deliver is one it throws over
  (`reads_never_throw_iff`).
- The read loop stalls on an open connection if and only if that frame
  is an `Init` the server accepts (`reads_never_stall_iff`).
-/
import AWEnginePacket.Proofs.Receiving

namespace AWEnginePacket

open Endian (ByteOrder)
open Effect

namespace Connection

variable {host : ByteOrder} {ids : PacketIDs} {c : Connection}
  {stream rest : List UInt8} {fs : List WireFrame}

-- ======================================================= starting to read

/-- A server's side of a connection, once it is started. -/
theorem listening_started (self : Nat) (stream : List UInt8)
    (now : TimePoint) : Listening stream (started self stream now) :=
  ⟨rfl, rfl, rfl, rfl, rfl, rfl, rfl⟩

/-- A client's side of a connection, once its connect succeeded. -/
theorem listening_connectToServer {self : Nat} {now : TimePoint}
    {initPacket : Option IPacket} {leftOpen : Bool}
    (h : step host ids (.connectDone true leftOpen)
      (after (connectToServer initPacket)
        (create self .toServer false stream now)) = some c)
    (hesc : c.escaped = none) : Listening stream c := by
  obtain ⟨c₁, rfl, hc₁⟩ := of_connectToServer h hesc
  rcases hc₁ with ⟨-, rfl⟩ | ⟨packet, -, hsend⟩
  · exact ⟨rfl, rfl, rfl, rfl, rfl, rfl, rfl⟩
  · obtain ⟨hside, hopen, he⟩ := (send_keeps_reading packet).of_ok hsend
    simp only [readSide, Prod.mk.injEq] at hside
    obtain ⟨hreads, hin, hwip, hmsgs, -, -, -, hconn⟩ := hside
    refine ⟨?_, hin, hmsgs, ?_, hopen, hconn, he⟩
    · show c₁.reads ++ [.header] = [.header]
      rw [hreads]
      rfl
    · show c₁.mWipInMessage.body = {}
      rw [hwip]
      rfl

-- ============================================================= own bodies

/-- A body that fits the header's size fits a buffer. -/
theorem bytes_of_length_le {b : List UInt8} (h : b.length ≤ 65535) :
    PacketBuffer.bytes ⟨b, 0⟩ = b := by
  refine PacketBuffer.bytes_of_unread (PacketBuffer.unread_fresh ?_)
  have hmax : uint32Max = 4294967295 := rfl
  omega

/-- The body left in the message is one of the frames'. -/
theorem Inbox.body_length_le (owner : Option Nat) {fs : List WireFrame}
    (h : ∀ f ∈ fs, f.2.length ≤ 65535) :
    (Inbox.of owner fs).body.length ≤ 65535 := by
  induction fs using List.reverseRecOn with
  | nil => simp [Inbox.of]
  | append_singleton fs f ih =>
      rw [Inbox.of_append_singleton, Inbox.take]
      by_cases hf : f.2 = []
      · rw [if_pos hf]
        exact ih fun g hg => h g (List.mem_append_left _ hg)
      · rw [if_neg hf]
        exact h f (List.mem_append_right _ (List.mem_singleton_self f))

/-- Every message pushed is the frame at its place in the stream, under
that frame's header. It holds that frame's body if and only if the
frame has one, or no frame before it had. -/
theorem delivers_own_body_iff {c₀ : Connection} {acts : List Action}
    {k : Nat} {m : OwnedMessage} (h₀ : Listening stream c₀)
    (hrun : Lts.run (step host ids) c₀ acts = some c)
    (hm : c.mMessagesIn[k]? = some m) :
    ∃ f, (frames.split stream).1[k]? = some f ∧ m.second.header = f.1
      ∧ f.2.length = m.second.header.size.toNat
      ∧ (m.second.body.bytes = f.2
        ↔ f.2 ≠ [] ∨ ∀ g ∈ (frames.split stream).1.take k, g.2 = []) := by
  obtain ⟨fs, rest, hr⟩ := reader_run h₀ hrun
  rw [hr.messages] at hm
  obtain ⟨f, hf, rfl⟩ := Inbox.getElem?_of c.owner hm
  obtain ⟨hk, -⟩ := List.getElem?_eq_some_iff.mp hf
  have hsplit := hr.cursor.frames
  have hget : (frames.split stream).1[k]? = some f := by
    rw [hsplit, List.getElem?_append_left hk, hf]
  have htake : (frames.split stream).1.take k = fs.take k := by
    rw [hsplit, List.take_append_of_le_length (by omega)]
  have hlen (g : WireFrame) (hg : g ∈ (frames.split stream).1) :
      g.2.length = g.1.size.toNat := frames.length_of_mem_split hg
  have hshort : (Inbox.of c.owner (fs.take (k + 1))).body.length ≤ 65535 := by
    refine Inbox.body_length_le c.owner fun g hg => ?_
    have hg' : g ∈ (frames.split stream).1 := by
      rw [hsplit]
      exact List.mem_append_left _ (List.mem_of_mem_take hg)
    have hlt := g.1.size.toNat_lt
    rw [hlen g hg']
    omega
  refine ⟨f, hget, rfl, hlen f (List.mem_of_getElem? hget), ?_⟩
  show PacketBuffer.bytes _ = f.2 ↔ _
  rw [bytes_of_length_le hshort, htake, List.take_add_one, hf]
  show (Inbox.of c.owner (fs.take k ++ [f])).body = f.2 ↔ _
  rw [Inbox.of_append_singleton, Inbox.take]
  by_cases hnil : f.2 = []
  · rw [if_pos hnil, hnil, Inbox.body_eq_nil_iff]
    simp
  · rw [if_neg hnil]
    simp [hnil]

/-- Two messages with a body each. -/
theorem delivers_own_body_iff_two :
    ∃ c m, Lts.run (step .little ⟨1, 2⟩)
        (started 0 [5, 0, 0, 1, 7, 6, 0, 0, 1, 8] 0)
        [.readDone .header true 1, .readDone (.body 1) true 1,
          .readDone .header true 1, .readDone (.body 1) true 1] = some c
      ∧ c.mMessagesIn[1]? = some m ∧ m.second.body.bytes = [8] := by
  refine ⟨_, ⟨some 0, ⟨⟨6, 0, 1⟩, ⟨[8], 0⟩⟩⟩, rfl, by decide, ?_⟩
  obtain ⟨f, hf, -, -, hiff⟩ := @delivers_own_body_iff .little ⟨1, 2⟩ _
    [5, 0, 0, 1, 7, 6, 0, 0, 1, 8]
    (started 0 [5, 0, 0, 1, 7, 6, 0, 0, 1, 8] 0)
    [.readDone .header true 1, .readDone (.body 1) true 1,
      .readDone .header true 1, .readDone (.body 1) true 1]
    1 ⟨some 0, ⟨⟨6, 0, 1⟩, ⟨[8], 0⟩⟩⟩ (listening_started 0 _ 0) rfl (by decide)
  have hsecond : (frames.split [5, 0, 0, 1, 7, 6, 0, 0, 1, 8]).1[1]?
      = some (⟨6, 0, 1⟩, [8]) := by decide
  rw [hsecond, Option.some.injEq] at hf
  subst hf
  exact hiff.mpr (.inl (by decide))

/-- A message without a body is delivered with the body of the one
before it. -/
theorem delivers_left_over_body :
    ¬ ∀ (host : ByteOrder) (ids : PacketIDs) (stream : List UInt8)
        (c₀ c : Connection) (acts : List Action) (k : Nat)
        (m : OwnedMessage) (f : WireFrame), Listening stream c₀ →
      Lts.run (step host ids) c₀ acts = some c →
      c.mMessagesIn[k]? = some m → (frames.split stream).1[k]? = some f →
      m.second.body.bytes = f.2 := by
  intro h
  have hbody := h .little ⟨1, 2⟩ [5, 0, 0, 2, 7, 8, 6, 0, 0, 0]
    (started 0 [5, 0, 0, 2, 7, 8, 6, 0, 0, 0] 0) _
    [.readDone .header true 1, .readDone (.body 2) true 1,
      .readDone .header true 1]
    1 ⟨some 0, ⟨⟨6, 0, 0⟩, ⟨[7, 8], 0⟩⟩⟩ (⟨6, 0, 0⟩, [])
    (listening_started 0 _ 0) rfl (by decide) (by decide)
  have hbytes : PacketBuffer.bytes ⟨[7, 8], 0⟩ = [7, 8] := by decide
  rw [hbytes] at hbody
  cases hbody

-- ============================================================ exceptions

/-- What is next in front of a reader and is not delivered is the first
such frame of the stream. -/
theorem Reader.find?_of_nextIs {d : PacketDirection} {v : Verdict}
    (hr : Reader ids d stream c fs rest) (hv : v ≠ .deliver)
    (h : NextIs ids c.mDirection rest v) :
    ∃ f, (frames.split stream).1.find? (endsReading ids d) = some f
      ∧ verdict ids d f = v := by
  obtain ⟨f, rest', hnext, hf⟩ := h
  rw [hr.direction] at hf
  refine ⟨f, hr.cursor.find?_eq ?_ hnext ?_, hf⟩
  · intro g hg
    have hg' := hr.delivered g hg
    rw [hr.direction] at hg'
    rw [endsReading, hg']
    rfl
  · rw [endsReading, hf]
    exact bne_iff_ne.mpr hv

/-- No run of the read handlers of a server's connection throws if and
only if the first frame that is not delivered is not one to throw
over. -/
theorem reads_never_throw_iff (host : ByteOrder) (ids : PacketIDs)
    (self : Nat) (stream : List UInt8) (now : TimePoint) :
    (∀ acts c,
        Lts.run (step host ids) (started self stream now) acts = some c →
        ∀ e, c.escaped ≠ some (.read, e))
      ↔ ∀ f, (frames.split stream).1.find? (endsReading ids .toClient)
          = some f → verdict ids .toClient f ≠ .fault := by
  have h₀ := listening_started self stream now
  constructor
  · intro h f hfind hv
    obtain ⟨acts, c₁, c', rest', hrun, hp, hdir, -, ho⟩ :=
      @reads_first host ids _ _ f _ h₀.poised rfl
        (fun g => deliver_of_not_endsReading) hfind
    rw [← hdir] at hv
    cases ho with
    | delivered hv' => rw [hv] at hv'; cases hv'
    | closed hv' => rw [hv] at hv'; cases hv'
    | thrown e c₂ _ _ hc' => exact h acts c' hrun e (by rw [hc'])
    | stalled hv' => rw [hv] at hv'; cases hv'
  · intro h acts c hrun e he
    obtain ⟨fs, rest, hr⟩ := reader_run h₀ hrun
    obtain ⟨f, hfind, hv⟩ := hr.find?_of_nextIs (by decide)
      (hr.thrown e he hr.direction)
    exact h f hfind hv

/-- A KeepAlive of the wrong size. -/
theorem read_throws_over_ping :
    ¬ ∀ (host : ByteOrder) (ids : PacketIDs) (self : Nat)
        (stream : List UInt8) (now : TimePoint) (acts : List Action)
        (c : Connection) (e : Fault),
      Lts.run (step host ids) (started self stream now) acts = some c →
      c.escaped ≠ some (.read, e) := by
  intro h
  have hesc := h .little ⟨1, 2⟩ 0 [1, 0, 0, 0] 0 [.readDone .header true 1] _
    (.runtimeError "KeepAlive packet has invalid size") rfl
  exact hesc (by decide)

-- ================================================================ stalls

/-- Frames that are not a server's `Init`. -/
def ordinary (ids : PacketIDs) (direction : PacketDirection)
    (f : WireFrame) : Bool :=
  !(f.1.id == ids.init && direction == .toClient)

/-- The bytes of the stream that reads have taken. -/
def taken (stream : List UInt8) (c : Connection) : List UInt8 :=
  stream.take (stream.length - c.incoming.length)

/-- The read loop goes on: one read is outstanding, and the messages of
the bytes taken, but for `Init` packets, have been pushed in order. -/
structure GoesOn (ids : PacketIDs) (stream : List UInt8) (c : Connection) :
    Prop where
  one_read : c.reads.length = 1
  in_order : c.mMessagesIn.map (·.second.header)
    = ((frames.split (taken stream c)).1.filter
        (ordinary ids c.mDirection)).map (·.1)

/-- Only frames that are not a server's `Init` are delivered. -/
theorem ordinary_of_deliver {direction : PacketDirection} {f : WireFrame}
    (h : verdict ids direction f = .deliver) :
    ordinary ids direction f = true := by
  by_cases hinit : f.1.id = ids.init ∧ direction = .toClient
  · -- no branch of the verdict on an `Init` delivers
    unfold verdict at h
    rw [if_pos hinit] at h
    split at h
    · cases h
    · split at h
      · cases h
      · split at h
        · cases h
        · split at h
          · cases h
          · cases h
  · rw [not_and] at hinit
    unfold ordinary
    by_cases hid : f.1.id = ids.init
    · have hdir := hinit hid
      cases direction with
      | toClient => exact absurd rfl hdir
      | toServer => simp
    · simp [hid]

/-- A header whose body is not there is no frame. -/
theorem next_of_header_only {hb : List UInt8} (hlen : hb.length = 4)
    (hsize : (decodeHeader hb).size ≠ 0) : frames.next hb = none := by
  have hpos : (decodeHeader hb).size.toNat ≠ 0 := by
    intro hzero
    exact hsize (UInt16.toNat_inj.mp hzero)
  cases hn : frames.next hb with
  | none => rfl
  | some fr =>
      obtain ⟨⟨h, body⟩, l⟩ := fr
      obtain ⟨hb', hcut, hf, -⟩ := frames.next_eq_some_iff.mp hn
      have hlen' : hb'.length = 4 := hf.header_length
      have hsame : hb = hb' := by
        rw [List.append_assoc, ← List.append_nil hb] at hcut
        exact List.append_inj_left hcut (hlen.trans hlen'.symm)
      have hbody : body.length = (decodeHeader hb).size.toNat := by
        rw [hsame]
        exact hf.body_length
      have htotal := congrArg List.length hcut
      simp only [List.length_append] at htotal
      omega

/-- Only a server's reading stalls. -/
theorem toClient_of_stall {direction : PacketDirection} {f : WireFrame}
    (h : verdict ids direction f = .stall) : direction = .toClient := by
  by_contra hdir
  have hinit : ¬(f.1.id = ids.init ∧ direction = .toClient) :=
    fun hi => hdir hi.2
  rw [verdict, if_neg hinit] at h
  split at h
  · cases h
  · split at h
    · cases h
    · cases h

/-- A reader that has a read outstanding goes on. -/
theorem Reader.goesOn {d : PacketDirection}
    (hr : Reader ids d stream c fs rest) (hreads : c.reads ≠ []) :
    GoesOn ids stream c := by
  have hheaders : c.mMessagesIn.map (·.second.header)
      = (fs.filter (ordinary ids c.mDirection)).map (·.1) := by
    have hall : fs.filter (ordinary ids c.mDirection) = fs := by
      rw [List.filter_eq_self]
      exact fun f hf => ordinary_of_deliver (hr.delivered f hf)
    rw [hall, hr.messages, Inbox.headers_of]
  have hcur := hr.cursor
  cases hr.awaiting with
  | header hr' hbody =>
      refine ⟨by rw [hr']; rfl, ?_⟩
      rw [taken, @Framing.Format.Cursor.taken _ _ frames _ _ _ [] hcur rfl]
      exact hheaders
  | body hb bs hlen hsize hheader hr' hbody hbs =>
      refine ⟨by rw [hr']; rfl, ?_⟩
      rw [taken, hcur.taken (next_of_header_only hlen hsize)]
      exact hheaders
  | done rest hr' => exact absurd hr' hreads

/-- In every state of every run in which the socket is open and nothing
has thrown the read loop goes on, if and only if the first frame that
is not delivered is not one that stalls it. -/
theorem reads_never_stall_iff {c₀ : Connection}
    (h₀ : Listening stream c₀) :
    (∀ acts c, Lts.run (step host ids) c₀ acts = some c →
        c.isOpen = true → c.escaped = none → GoesOn ids stream c)
      ↔ ∀ f, (frames.split stream).1.find? (endsReading ids c₀.mDirection)
          = some f → verdict ids c₀.mDirection f ≠ .stall := by
  constructor
  · intro h f hfind hv
    have hdir := toClient_of_stall hv
    rw [hdir] at hfind
    obtain ⟨acts, c₁, c', rest', hrun, hp, hdir₁, -, ho⟩ :=
      @reads_first host ids _ _ f _ h₀.poised hdir
        (fun g => deliver_of_not_endsReading) hfind
    rw [hdir, ← hdir₁] at hv
    cases ho with
    | delivered hv' => rw [hv] at hv'; cases hv'
    | closed hv' => rw [hv] at hv'; cases hv'
    | thrown e c₂ hv' _ _ => rw [hv] at hv'; cases hv' hdir₁
    | stalled _ hrel =>
        obtain ⟨hside, hopen, hesc⟩ := hrel
        have hgo := h acts c' hrun (hopen.trans hp.isOpen)
          (hesc.trans hp.escaped)
        have hreads : c'.reads = c₁.reads := congrArg Prod.fst hside
        have hone := hgo.one_read
        rw [hreads, hp.reads] at hone
        cases hone
  · intro h acts c hrun hopen hesc
    obtain ⟨fs, rest, hr⟩ := reader_run h₀ hrun
    refine hr.goesOn fun hreads => ?_
    obtain ⟨f, hfind, hv⟩ := hr.find?_of_nextIs (by decide)
      (hr.idle hreads hopen hesc)
    exact h f hfind hv

/-- A stream of one ordinary message. -/
theorem reads_never_stall_iff_one :
    ∃ c, Lts.run (step .little ⟨1, 2⟩) (started 0 [5, 0, 0, 0] 0)
        [.readDone .header true 1] = some c
      ∧ GoesOn ⟨1, 2⟩ [5, 0, 0, 0] c := by
  refine ⟨_, rfl, ?_⟩
  have h := @reads_never_stall_iff .little ⟨1, 2⟩ [5, 0, 0, 0]
    (started 0 [5, 0, 0, 0] 0) (listening_started 0 _ 0)
  refine h.mpr ?_ [.readDone .header true 1] _ rfl rfl rfl
  have hnone : (frames.split [5, 0, 0, 0]).1.find?
      (endsReading ⟨1, 2⟩ .toClient) = none := by decide
  intro f hf
  cases hnone.symm.trans hf

/-- A server that has read a client's `Init` never reads again. -/
theorem init_stalls_loop :
    ¬ ∀ (host : ByteOrder) (ids : PacketIDs) (stream : List UInt8)
        (c₀ c : Connection) (acts : List Action), Listening stream c₀ →
      Lts.run (step host ids) c₀ acts = some c →
      c.isOpen = true → c.escaped = none → GoesOn ids stream c := by
  intro h
  have hend : (Lts.run (step .little ⟨1, 2⟩)
      (started 0 ([2, 0, 0, 17] ++ List.replicate 17 0) 0)
      [.readDone .header true 1, .readDone (.body 17) true 1]).map
        (fun c => (c.isOpen, c.escaped, c.reads)) = some (true, none, []) := by
    decide +kernel
  obtain ⟨c, hrun, hc⟩ := Option.map_eq_some_iff.mp hend
  simp only [Prod.mk.injEq] at hc
  obtain ⟨hopen, hesc, hreads⟩ := hc
  have hgo := h .little ⟨1, 2⟩ _ _ c _ (listening_started 0 _ 0) hrun hopen hesc
  have hone := hgo.one_read
  rw [hreads] at hone
  cases hone

end Connection

end AWEnginePacket
