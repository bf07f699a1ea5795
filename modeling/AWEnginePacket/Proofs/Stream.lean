/-
The byte stream between two ends.

`frames` is the receiver's rule: an ID, the flags, a big-endian 16-bit
size, and as many body bytes as that says. Both ends agree on it
whatever their byte orders: `decode_headerBytes` is the sender's side,
`receivedHeader_eq` the receiver's.

# The 16-bit size

`Send` puts the body's size, cut to 16 bits, into the header, while
`WriteBody()` writes the whole body. `stream_splits_iff` is what follows
for a whole stream: the receiver finds the sender's packets in it, in
order and with their bodies, if and only if no body is longer than
65,535 bytes. The per-field limits do not ensure that: a `Kick` whose
message is within the string limit can be three bytes over. That the
sender's packets are those of the run's `Send`s is shown in `Posting`.
-/
import AWEnginePacket.Proofs.Login
import AWEnginePacket.Proofs.Writing

namespace AWEnginePacket

open Endian (ByteOrder leBytes ofLe)
open Effect

-- ============================================================== headers

/-- The receiver's rule for the first four bytes of a frame. -/
def decodeHeader : List UInt8 → PacketHeader
  | [id, flags, hi, lo] =>
      ⟨id, flags, UInt16.ofNat (256 * hi.toNat + lo.toNat)⟩
  | _ => {}

/-- The frames of the wire. -/
def frames : Framing.Format UInt8 PacketHeader where
  headerLength := 4
  headerLength_pos := by decide
  decode := decodeHeader
  bodyLength h := h.size.toNat

/-- The two swaps are the same function, and neither overflows. -/
theorem be16toh_toNat (host : ByteOrder) (x : UInt16) :
    (be16toh host x).toNat = host.htobe 2 x.toNat := by
  rw [be16toh, UInt16.toNat_ofNat', Nat.mod_eq_of_lt]
  cases host with
  | little => exact Endian.bswap_lt 2 x.toNat
  | big => exact x.toNat_lt

/-- What a receiver makes of four header bytes, by reading them into
memory and swapping the size, is `decodeHeader`. -/
theorem receivedHeader_eq (host : ByteOrder) {bs : List UInt8}
    (h : bs.length = 4) :
    { PacketHeader.ofMemory host bs with
        size := be16toh host (PacketHeader.ofMemory host bs).size }
      = decodeHeader bs := by
  match bs, h with
  | [id, flags, hi, lo], _ =>
    have htwo (a b : UInt8) : ofLe [a, b] < 2 ^ 16 := by
      have ha := a.toNat_lt
      have hb := b.toNat_lt
      simp only [ofLe]
      omega
    have hload : (UInt16.ofNat (host.load [hi, lo])).toNat
        = host.load [hi, lo] := by
      rw [UInt16.toNat_ofNat', Nat.mod_eq_of_lt]
      cases host with
      | little => exact htwo hi lo
      | big => exact htwo lo hi
    have hsize : be16toh host (UInt16.ofNat (host.load [hi, lo]))
        = UInt16.ofNat (256 * hi.toNat + lo.toNat) := by
      rw [be16toh, hload]
      have h := Endian.betoh_load host [hi, lo]
      simp only [List.length_cons, List.length_nil] at h
      rw [h]
      simp only [List.reverse_cons, List.reverse_nil, List.nil_append,
        List.cons_append, ofLe]
      congr 1
      omega
    show (⟨id, flags, be16toh host (UInt16.ofNat (host.load [hi, lo]))⟩
      : PacketHeader) = _
    rw [hsize]
    rfl

namespace Connection

variable {host : ByteOrder} {ids : PacketIDs}

theorem headerBytes_length (host : ByteOrder) (m : PacketSendInfo) :
    (headerBytes host m).length = 4 := by
  rw [headerBytes, PacketHeader.toMemory, List.length_append,
    Endian.store_length]
  rfl

/-- The header `Send` fills in, as a receiver decodes it. -/
theorem decode_headerBytes (host : ByteOrder) (packet : IPacket)
    (body : PacketBuffer) :
    frames.decode (headerBytes host (makeInfo host packet body))
      = ⟨packet.id, PacketFlags.none, body.size.toUInt16⟩ := by
  have hstore : host.store 2 (htobe16 host body.size.toUInt16).toNat
      = (leBytes 2 body.size.toUInt16.toNat).reverse := by
    rw [show htobe16 host = be16toh host from rfl, be16toh_toNat,
      Endian.store_htobe]
  have hlt := body.size.toUInt16.toNat_lt
  rw [headerBytes, PacketHeader.toMemory, makeInfo]
  simp only [hstore, leBytes, List.reverse_cons, List.reverse_nil,
    List.nil_append, List.cons_append]
  show (⟨packet.id, _, _⟩ : PacketHeader) = _
  congr 1
  apply UInt16.toNat_inj.mp
  simp only [UInt16.toNat_ofNat', UInt8.toNat_ofNat']
  omega

-- ============================================================== streams

/-- The size in the header tells the length of the body if and only if
it fits. -/
theorem size_iff {call : SendCall} (h : Prepared host call) :
    frames.bodyLength (frames.decode (headerBytes host call.info))
        = (bodyBytes call.info).length
      ↔ (bodyBytes call.info).length ≤ 65535 := by
  have hbody : (bodyBytes call.info).length = call.info.body.size.toNat :=
    call.info.body.bytes_length
  have hsize : (call.info.body.size.toUInt16).toNat
      = call.info.body.size.toNat % 65536 := by
    rw [UInt32.toNat_toUInt16]
  rw [h.2, decode_headerBytes, ← h.2, hbody]
  show (call.info.body.size.toUInt16).toNat = _ ↔ _
  rw [hsize]
  omega

/-- The bytes a packet's `Write` puts into an empty buffer. -/
def bodyOf (packet : IPacket) : List UInt8 :=
  match packet.write.run {} with
  | .ok _ body => body.bytes
  | .error _ _ => []

theorem Prepared.bodyOf {call : SendCall} (h : Prepared host call) :
    bodyOf call.packet = bodyBytes call.info := by
  rw [Connection.bodyOf, h.1]
  rfl

/-- A frame as the sender means it. -/
def meant (call : SendCall) : (UInt8 × PacketFlags) × List UInt8 :=
  ((call.packet.id, PacketFlags.none), bodyOf call.packet)

/-- A frame as the receiver finds it. -/
def found (frame : PacketHeader × List UInt8) :
    (UInt8 × PacketFlags) × List UInt8 :=
  ((frame.1.id, frame.1.flags), frame.2)

/-- Once everything posted is written, what was handed to the socket is
the stream of all messages. -/
theorem handed_of_drained {c₀ c : Connection} {acts : List Action}
    (h₀ : Fresh host c₀)
    (hrun : Lts.run (step host ids) c₀ acts = some c) (hd : Drained c) :
    c.handed = wire host (c.sent.map (·.info))
      ∧ ∀ call ∈ c.sent, Prepared host call := by
  obtain ⟨done, stage, hp⟩ := pump_run h₀ hrun
  obtain ⟨hout, hqueued⟩ := hd
  have hwriting := hp.writing
  rw [hout] at hwriting
  refine ⟨?_, hp.sentPrepared⟩
  rw [hp.infos, hout, hqueued, List.append_nil, List.append_nil]
  exact hwriting.out_eq_of_queue_nil

/-- A stream of prepared messages splits back into them if and only if
no body is too long for the header. -/
theorem split_wire_iff {calls : List SendCall}
    (hp : ∀ call ∈ calls, Prepared host call) :
    ((frames.split (wire host (calls.map (·.info)))).1.map found
        = calls.map meant
      ∧ (frames.split (wire host (calls.map (·.info)))).2 = [])
      ↔ ∀ call ∈ calls, (bodyOf call.packet).length ≤ 65535 := by
  have hsplit := frames.split_sent_iff
    (fun call : SendCall => headerBytes host call.info)
    (fun call => bodyBytes call.info) (fun h => (h.id, h.flags))
    (fun call => headerBytes_length host call.info) calls
  have hwire : wire host (calls.map (·.info)) = Framing.Format.sent
      (fun call : SendCall => headerBytes host call.info)
      (fun call => bodyBytes call.info) calls := List.flatMap_map ..
  have hmeant : calls.map meant = calls.map fun call =>
      (((frames.decode (headerBytes host call.info)).id,
        (frames.decode (headerBytes host call.info)).flags),
        bodyBytes call.info) := by
    refine List.map_congr_left fun call hcall => ?_
    have hprep := hp call hcall
    rw [meant, hprep.bodyOf, hprep.2, decode_headerBytes, ← hprep.2]
  rw [hwire, hmeant]
  refine hsplit.trans ?_
  constructor
  · intro h call hcall
    rw [(hp call hcall).bodyOf]
    exact (size_iff (hp call hcall)).mp (h call hcall)
  · intro h call hcall
    have hle := h call hcall
    rw [(hp call hcall).bodyOf] at hle
    exact (size_iff (hp call hcall)).mpr hle

/-- Framing on the sender's side is lossless exactly for packets whose
body fits the header's size: then, and only then, does the stream split
into the packets that were sent, and then does every header tell the
length of the body behind it. -/
theorem stream_splits_iff {c₀ c : Connection} {acts : List Action}
    (h₀ : Fresh host c₀)
    (hrun : Lts.run (step host ids) c₀ acts = some c) (hd : Drained c) :
    (((frames.split c.handed).1.map found = c.sent.map meant
        ∧ (frames.split c.handed).2 = [])
      ↔ ∀ call ∈ c.sent, (bodyOf call.packet).length ≤ 65535)
    ∧ ∀ call ∈ c.sent,
        ((frames.decode (headerBytes host call.info)).size.toNat
            = (bodyBytes call.info).length
          ↔ (bodyOf call.packet).length ≤ 65535) := by
  obtain ⟨hhanded, hp⟩ := handed_of_drained h₀ hrun hd
  constructor
  · rw [hhanded]
    exact split_wire_iff hp
  · intro call hcall
    rw [(hp call hcall).bodyOf]
    exact size_iff (hp call hcall)

/-- One ping, sent and written. -/
theorem stream_splits_iff_ping :
    ∃ c, Lts.run (step .little ⟨1, 2⟩) (started 0 [] 0)
        [.send (Ping.toPacket .little 1 ⟨7⟩), .posted,
          .writeDone .header true 1, .writeDone .body true 2] = some c
      ∧ (frames.split c.handed).1.map found = c.sent.map meant := by
  refine ⟨_, rfl, ?_⟩
  have h := @stream_splits_iff .little ⟨1, 2⟩ (started 0 [] 0) _
    [.send (Ping.toPacket .little 1 ⟨7⟩), .posted,
      .writeDone .header true 1, .writeDone .body true 2]
    (fresh_started 0 [] 0) rfl ⟨rfl, rfl⟩
  exact (h.1.mpr (by decide)).1

-- ================================================================ kicks

/-- What a writer of known bytes puts into an empty buffer. -/
theorem bodyOf_of_emits {packet : IPacket} {out : List UInt8}
    (h : QueueCodec.Emits PacketBuffer.unread packet.write out)
    (hout : out.length ≤ uint32Max) :
    ∃ body, packet.write.run {} = .ok ⟨⟩ body ∧ bodyOf packet = out := by
  obtain ⟨body, hrun, hbody⟩ := h {} [] PacketBuffer.unread_empty
    (by rw [List.length_nil, Nat.zero_add]; exact hout)
  refine ⟨body, hrun, ?_⟩
  rw [bodyOf, hrun]
  exact PacketBuffer.bytes_of_unread hbody

/-- A `Kick` with a message takes three bytes more than the message. -/
theorem kick_bodyOf (host : ByteOrder) (id : UInt8) {k : Kick}
    (hne : k.message ≠ [])
    (hlen : k.message.length ≤ uint16Max) :
    ∃ body, (k.toPacket host id).write.run {} = .ok ⟨⟩ body
      ∧ bodyOf (k.toPacket host id)
        = k.type :: PacketBuffer.stringBytes k.message := by
  have hmax : uint16Max = 65535 := rfl
  have hmax' : uint32Max = 4294967295 := rfl
  refine bodyOf_of_emits ?_ ?_
  · show QueueCodec.Emits PacketBuffer.unread
      (if k.message ≠ [] then _ else _) _
    rw [if_pos hne]
    exact (PacketBuffer.emits_write k.type).seq
      (PacketBuffer.emits_putString host hlen)
  · simp only [PacketBuffer.stringBytes, List.length_cons,
      List.length_append, Endian.leBytes_length]
    omega

/-- A `Kick` that the string limit lets through and the header's size
does not. -/
theorem kick_breaks_stream :
    ¬ ∀ (host : ByteOrder) (ids : PacketIDs) (c₀ c : Connection)
        (acts : List Action), Fresh host c₀ →
      Lts.run (step host ids) c₀ acts = some c → Drained c →
      (frames.split c.handed).1.map found = c.sent.map meant
        ∧ (frames.split c.handed).2 = [] := by
  intro h
  obtain ⟨k, hk⟩ : ∃ k : Kick, k.message = List.replicate 65534 97 :=
    ⟨⟨0, List.replicate 65534 97⟩, rfl⟩
  have hlen : k.message.length = 65534 := by
    rw [hk, List.length_replicate]
  have hne : k.message ≠ [] := by
    rw [ne_eq, ← List.length_eq_zero_iff, hlen]
    decide
  obtain ⟨body, hw, hbytes⟩ := kick_bodyOf .little 9 hne
    (by rw [hlen]; decide)
  obtain ⟨acts, c, call, hrun, hd, hpacket, hsent⟩ :=
    send_drains ⟨1, 2⟩ (fresh_started 0 [] 0) rfl hw
  have hsplit := h .little ⟨1, 2⟩ _ c acts (fresh_started 0 [] 0) hrun hd
  obtain ⟨hhanded, hp⟩ := handed_of_drained (fresh_started 0 [] 0) hrun hd
  rw [hhanded, split_wire_iff hp] at hsplit
  have hfits := hsplit call (by rw [hsent]; simp)
  rw [hpacket, hbytes, List.length_cons, PacketBuffer.stringBytes,
    List.length_append, Endian.leBytes_length, hlen] at hfits
  omega

end Connection

end AWEnginePacket
