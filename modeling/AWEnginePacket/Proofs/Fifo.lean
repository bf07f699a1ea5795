/-
A `PacketBuffer` is a queue of bytes.

The queue is a list: writing appends, reading takes from the front, and
a write that would take it past 2³² − 1 bytes is refused and changes
nothing (`Fifo.respond`). The buffer behind the same calls is a vector
with an offset that reads move and writes bring back to 0. `unread`
relates the two; one lemma a call shows that from related states both
answer alike, `size()` and `empty()` included, and are related again.
The rest is the simulation rule: no list of calls tells them apart.
-/
import AWEnginePacket.Lib.Refinement
import AWEnginePacket.Model.BufferCalls
import AWEnginePacket.Proofs.Buffer

namespace AWEnginePacket

open Endian (ByteOrder)
open Effect
open QueueCodec

-- ============================================================= the queue

/-- The calls that write, read, and look at what is there. -/
inductive Fifo.Call
  | write (val : UInt8)
  | writeArray (val : List UInt8)
  | read
  | tryRead
  | readArray (dataLength : UInt32)
  | peekArray (dataLength : UInt32)
  | save
  | clear

namespace Fifo

open PacketBuffer (Outcome)

/-- What a plain queue of bytes answers, and what it holds then. -/
def respond : Fifo.Call → List UInt8 → Outcome × List UInt8
  | .write val, l =>
      if l.length < uint32Max then (.unit, l ++ [val])
      else (.threw (.runtimeError "Buffer is full"), l)
  | .writeArray val, l =>
      if l.length + val.length ≤ uint32Max then (.unit, l ++ val)
      else (.threw (.runtimeError "Buffer would be full"), l)
  | .read, [] =>
      (.threw (.runtimeError "Attempt to read outside of the buffer"), [])
  | .read, v :: l => (.byte v, l)
  | .tryRead, [] => (.tried none, [])
  | .tryRead, v :: l => (.tried (some v), l)
  | .readArray n, l => (.bytes (l.take n.toNat), l.drop n.toNat)
  | .peekArray n, l => (.bytes (l.take n.toNat), l)
  | .save, l => (.bytes l, l)
  | .clear, _ => (.unit, [])

/-- The same call on a buffer. -/
def Call.onBuffer : Fifo.Call → PacketBuffer.Call
  | .write val => .write val
  | .writeArray val => .writeArray val
  | .read => .read
  | .tryRead => .tryRead
  | .readArray n => .readArray n
  | .peekArray n => .peekArray n
  | .save => .save
  | .clear => .clear

/-- A call on the queue, and how many bytes it holds then. -/
def watched (c : Fifo.Call) (l : List UInt8) :
    (Outcome × Nat × Bool) × List UInt8 :=
  let (r, l') := respond c l
  ((r, l'.length, l'.isEmpty), l')

end Fifo

namespace PacketBuffer

variable (host : ByteOrder) {b : PacketBuffer} {l : List UInt8}

/-- A call on the buffer, and `size()` and `empty()` after it. -/
def watched (c : Fifo.Call) (b : PacketBuffer) :
    (Outcome × Nat × Bool) × PacketBuffer :=
  let (r, b') := respond host c.onBuffer b
  ((r, b'.size.toNat, b'.empty), b')

-- ======================================================= the calls' ends

/-- A call that returned. -/
theorem respond_of_ok {c : Call} {r : Outcome} {b' : PacketBuffer}
    (h : (perform host c).run b = .ok r b') :
    respond host c b = (r, b') := by
  rw [respond, h]

/-- A call that threw. -/
theorem respond_of_error {c : Call} {e : Fault} {b' : PacketBuffer}
    (h : (perform host c).run b = .error e b') :
    respond host c b = (.threw e, b') := by
  rw [respond, h]

-- =============================================================== writing

/-- A full buffer refuses a byte and keeps what it has. -/
theorem run_write_full (v : UInt8) (h : unread.holds b l)
    (hfull : uint32Max ≤ l.length) :
    (write v).run b = .error (.runtimeError "Buffer is full") ⟨l, 0⟩ := by
  unfold write
  rw [run_bind_of_ok (run_removeStartOffset h), EStateM.run_bind,
    EStateM.run_get]
  simp only
  rw [if_pos hfull]
  rfl

/-- So it does an array it has no room for. -/
theorem run_writeArray_full {val : List UInt8} (h : unread.holds b l)
    (hfull : uint32Max < l.length + val.length) :
    (writeArray val).run b
      = .error (.runtimeError "Buffer would be full") ⟨l, 0⟩ := by
  unfold writeArray
  rw [run_bind_of_ok (run_removeStartOffset h), EStateM.run_bind,
    EStateM.run_get]
  simp only
  rw [if_pos hfull]
  rfl

-- =============================================================== reading

/-- The peeking loop fills the same bytes and leaves them. -/
theorem peekLoop_of_unread (h : unread.holds b l) (n i : Nat) :
    b.peekLoop n i = (l.drop i).take n := by
  have hget (i : Nat) : b.mData[b.mStartOffset.toNat + i]? = l[i]? := by
    rw [← h.2.2, List.getElem?_drop]
  induction n generalizing i with
  | zero => rw [peekLoop, List.take_zero]
  | succ n ih =>
      rw [peekLoop, hget i]
      by_cases hi : i < l.length
      · rw [List.getElem?_eq_getElem hi, List.drop_eq_getElem_cons hi,
          List.take_succ_cons, ← ih (i + 1)]
      · have hnone : l[i]? = none := by
          rw [List.getElem?_eq_none_iff]
          omega
        have hdrop : l.drop i = [] := by
          rw [List.drop_eq_nil_iff]
          omega
        rw [hnone, hdrop, List.take_nil]

/-- `PeekArray` shows what `ReadArray` would take, compacting or not. -/
theorem run_peekArray (n : UInt32) (h : unread.holds b l) :
    ∃ b', (peekArray n).run b = .ok (l.take n.toNat) b'
      ∧ unread.holds b' l := by
  unfold peekArray
  rw [EStateM.run_bind, EStateM.run_get]
  simp only
  by_cases hlong : n.toNat + b.mStartOffset.toNat > uint32Max
  · have hlen : l.length ≤ uint32Max := by
      obtain ⟨-, hlen, hdrop⟩ := h
      rw [← hdrop, List.length_drop]
      omega
    refine ⟨⟨l, 0⟩, ?_, unread_fresh hlen⟩
    rw [if_pos hlong, run_bind_of_ok (run_removeStartOffset h),
      EStateM.run_bind, EStateM.run_get]
    simp only
    rw [peekLoop_of_unread (unread_fresh hlen), List.drop_zero]
    rfl
  · refine ⟨b, ?_, h⟩
    rw [if_neg hlong, EStateM.run_bind, EStateM.run_get]
    simp only
    rw [peekLoop_of_unread h, List.drop_zero]
    rfl

-- ========================================================= the simulation

/-- From a buffer that holds `l`, a call answers as the queue `l` does,
and leaves a buffer that holds what the queue then is. -/
theorem respond_of_unread (c : Fifo.Call) (h : unread.holds b l) :
    (respond host c.onBuffer b).1 = (Fifo.respond c l).1
      ∧ unread.holds (respond host c.onBuffer b).2 (Fifo.respond c l).2 := by
  have hcap : unread.cap = uint32Max := rfl
  have hlen : l.length ≤ uint32Max := by
    obtain ⟨-, hlen, hdrop⟩ := h
    rw [← hdrop, List.length_drop]
    omega
  cases c with
  | write v =>
      rw [Fifo.respond]
      by_cases hroom : l.length < uint32Max
      · obtain ⟨b', hrun, hb'⟩ := emits_write v b l h
          (by rw [List.length_singleton]; omega)
        rw [if_pos hroom, Fifo.Call.onBuffer,
          respond_of_ok host (run_bind_of_ok hrun)]
        exact ⟨rfl, hb'⟩
      · rw [if_neg hroom, Fifo.Call.onBuffer,
          respond_of_error host (run_bind_of_error
            (run_write_full v h (by omega)))]
        exact ⟨rfl, unread_fresh hlen⟩
  | writeArray val =>
      rw [Fifo.respond]
      by_cases hroom : l.length + val.length ≤ uint32Max
      · obtain ⟨b', hrun, hb'⟩ := emits_writeArray val b l h hroom
        rw [if_pos hroom, Fifo.Call.onBuffer,
          respond_of_ok host (run_bind_of_ok hrun)]
        exact ⟨rfl, hb'⟩
      · rw [if_neg hroom, Fifo.Call.onBuffer,
          respond_of_error host (run_bind_of_error
            (run_writeArray_full h (by omega)))]
        exact ⟨rfl, unread_fresh hlen⟩
  | read =>
      cases l with
      | nil =>
          rw [Fifo.respond, Fifo.Call.onBuffer,
            respond_of_error host (run_bind_of_error (run_read_nil h))]
          exact ⟨rfl, h⟩
      | cons v l =>
          obtain ⟨b', hrun, hb'⟩ := consumes_read v b l h
          rw [Fifo.respond, Fifo.Call.onBuffer,
            respond_of_ok host (run_bind_of_ok hrun)]
          exact ⟨rfl, hb'⟩
  | tryRead =>
      cases l with
      | nil =>
          rw [Fifo.respond, Fifo.Call.onBuffer,
            respond_of_ok host (run_bind_of_ok (run_tryRead_nil h))]
          exact ⟨rfl, h⟩
      | cons v l =>
          obtain ⟨b', hrun, hb'⟩ := consumes_tryRead v b l h
          rw [Fifo.respond, Fifo.Call.onBuffer,
            respond_of_ok host (run_bind_of_ok hrun)]
          exact ⟨rfl, hb'⟩
  | readArray n =>
      obtain ⟨b', hrun, hb'⟩ := run_readArray n.toNat h
      rw [Fifo.respond, Fifo.Call.onBuffer,
        respond_of_ok host (run_bind_of_ok hrun)]
      exact ⟨rfl, hb'⟩
  | peekArray n =>
      obtain ⟨b', hrun, hb'⟩ := run_peekArray n h
      rw [Fifo.respond, Fifo.Call.onBuffer,
        respond_of_ok host (run_bind_of_ok hrun)]
      exact ⟨rfl, hb'⟩
  | save =>
      have hsave : b.save = l := bytes_of_unread h
      refine ⟨?_, h⟩
      show Outcome.bytes b.save = .bytes l
      rw [hsave]
  | clear => exact ⟨rfl, unread_empty⟩

/-- The buffer simulates the queue, its observers included. -/
theorem watched_simulates :
    Refinement.Simulates unread.holds (watched host) Fifo.watched := by
  intro c b l h
  obtain ⟨hanswer, hnext⟩ := respond_of_unread host c h
  refine ⟨?_, hnext⟩
  have hsize := size_of_unread hnext
  have hempty := empty_of_unread hnext
  simp only [watched, Fifo.watched]
  rw [hanswer, hsize, hempty]

/-- No list of calls tells a buffer from a queue of bytes. -/
theorem buffer_is_fifo (calls : List Fifo.Call) :
    Refinement.trace (watched host) {} calls
      = Refinement.trace Fifo.watched [] calls :=
  (watched_simulates host).trace_eq unread_empty calls

/-- Reading past the end, writing behind it, and looking at both. -/
example : Refinement.trace (watched .big) {}
    [.writeArray [1, 2], .read, .write 3, .readArray 5, .read, .save]
    = [(.unit, 2, false), (.byte 1, 1, false), (.unit, 2, false),
      (.bytes [2, 3], 0, true),
      (.threw (.runtimeError "Attempt to read outside of the buffer"),
        0, true),
      (.bytes [], 0, true)] := by decide +kernel

end PacketBuffer

end AWEnginePacket
