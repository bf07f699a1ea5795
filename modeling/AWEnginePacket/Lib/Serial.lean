/-
A serialiser: two-part messages written to an output, one part at a
time.

The queue holds the messages not yet finished, its front the one being
written. Four situations are possible, and `Writing` has a constructor
for each: nothing queued; the front's head written; the front's body
written too; or the serialiser has halted with part of the front in the
output. The index that matters is the output: in every situation it is
the concatenation of the finished messages and of the part of the front
written so far, so no rule below can lose, repeat or interleave bytes.

The rules are the moves between the four: `start`, `headDone`,
`finished`, `halt`, and `enqueue` behind the front.
-/
import AWEnginePacket.Lib.Framing

namespace Serial

variable {M B : Type*}

/-- What the serialiser is doing with the front of its queue. -/
inductive Stage
  | idle
  | head
  | body
  | halted
deriving DecidableEq, Repr

variable (hdr bdy : M → List B)

/-- The output of finished messages. -/
abbrev wire (ms : List M) : List B := Framing.Format.sent hdr bdy ms

/-- `Writing hdr bdy done queue stage out`: the finished messages, the
queue, the stage and the output belong together. -/
inductive Writing : List M → List M → Stage → List B → Prop
  | idle (done : List M) : Writing done [] .idle (wire hdr bdy done)
  | head (done : List M) (m : M) (rest : List M) :
      Writing done (m :: rest) .head (wire hdr bdy done ++ hdr m)
  | body (done : List M) (m : M) (rest : List M) :
      Writing done (m :: rest) .body (wire hdr bdy done ++ hdr m ++ bdy m)
  | halted (done : List M) (m : M) (rest : List M) (part : List B)
      (h : part <+: hdr m ++ bdy m) :
      Writing done (m :: rest) .halted (wire hdr bdy done ++ part)

namespace Writing

variable {hdr bdy}
variable {done queue : List M} {stage : Stage} {out : List B} {m : M}

-- ================================================================ moves

/-- A message joins the queue behind the front. -/
theorem enqueue (h : Writing hdr bdy done queue stage out)
    (hq : queue ≠ []) (m : M) :
    Writing hdr bdy done (queue ++ [m]) stage out := by
  cases h with
  | idle => exact absurd rfl hq
  | head m' rest => exact .head done m' (rest ++ [m])
  | body m' rest => exact .body done m' (rest ++ [m])
  | halted m' rest part hp => exact .halted done m' (rest ++ [m]) part hp

/-- An idle serialiser starts on a message. -/
theorem start (h : Writing hdr bdy done [] .idle out) (m : M) :
    Writing hdr bdy done [m] .head (out ++ hdr m) := by
  cases h
  exact .head done m []

/-- The front's head is written, its body follows. -/
theorem headDone {rest : List M}
    (h : Writing hdr bdy done (m :: rest) .head out) :
    Writing hdr bdy done (m :: rest) .body (out ++ bdy m) := by
  cases h
  exact .body done m rest

/-- The output once the front's last part is written. -/
theorem out_eq_of_finished {rest : List M}
    (h : Writing hdr bdy done (m :: rest) stage out)
    (hfin : stage = .body ∨ stage = .head ∧ bdy m = []) :
    out = wire hdr bdy (done ++ [m]) := by
  have hone : wire hdr bdy (done ++ [m])
      = wire hdr bdy done ++ (hdr m ++ bdy m) := by
    rw [wire, Framing.Format.sent_append, Framing.Format.sent_cons]
    simp [Framing.Format.sent]
  rw [hone]
  rcases hfin with rfl | ⟨rfl, hb⟩
  · cases h
    exact List.append_assoc ..
  · cases h
    rw [hb, List.append_nil]

/-- The front was the last message: the serialiser is idle again. -/
theorem finished (h : Writing hdr bdy done [m] stage out)
    (hfin : stage = .body ∨ stage = .head ∧ bdy m = []) :
    Writing hdr bdy (done ++ [m]) [] .idle out := by
  rw [h.out_eq_of_finished hfin]
  exact .idle (done ++ [m])

/-- The front is finished and the next head is written. -/
theorem finished_next {m' : M} {rest : List M}
    (h : Writing hdr bdy done (m :: m' :: rest) stage out)
    (hfin : stage = .body ∨ stage = .head ∧ bdy m = []) :
    Writing hdr bdy (done ++ [m]) (m' :: rest) .head (out ++ hdr m') := by
  rw [h.out_eq_of_finished hfin]
  exact .head (done ++ [m]) m' rest

/-- The front is finished and the next head could not be written. -/
theorem finished_halt {m' : M} {rest : List M}
    (h : Writing hdr bdy done (m :: m' :: rest) stage out)
    (hfin : stage = .body ∨ stage = .head ∧ bdy m = []) :
    Writing hdr bdy (done ++ [m]) (m' :: rest) .halted out := by
  have hout := h.out_eq_of_finished hfin
  rw [← List.append_nil out, hout]
  exact .halted (done ++ [m]) m' rest [] (List.nil_prefix)

/-- An idle serialiser could not start on a message. -/
theorem start_halt (h : Writing hdr bdy done [] .idle out) (m : M) :
    Writing hdr bdy done [m] .halted out := by
  cases h
  rw [← List.append_nil (wire hdr bdy done)]
  exact .halted done m [] [] List.nil_prefix

/-- A part of the front was not written to the end. -/
theorem halt (h : Writing hdr bdy done queue stage out)
    (hq : queue ≠ []) : Writing hdr bdy done queue .halted out := by
  cases h with
  | idle => exact absurd rfl hq
  | head m' rest =>
      exact .halted done m' rest (hdr m') (List.prefix_append _ _)
  | body m' rest =>
      rw [List.append_assoc]
      exact .halted done m' rest (hdr m' ++ bdy m') (List.prefix_refl _)
  | halted m' rest part hp => exact .halted done m' rest part hp

-- ================================================================ facts

/-- Only an idle serialiser has an empty queue. -/
theorem queue_eq_nil_iff (h : Writing hdr bdy done queue stage out) :
    queue = [] ↔ stage = .idle := by
  cases h <;> simp

/-- With nothing queued, the output is the finished messages. -/
theorem out_eq_of_queue_nil (h : Writing hdr bdy done [] stage out) :
    out = wire hdr bdy done := by
  cases h
  rfl

/-- The output while a head is being written. -/
theorem of_head (h : Writing hdr bdy done queue .head out) :
    ∃ m rest, queue = m :: rest ∧ out = wire hdr bdy done ++ hdr m := by
  cases h with
  | head m rest => exact ⟨m, rest, rfl, rfl⟩

/-- The output while a body is being written. -/
theorem of_body (h : Writing hdr bdy done queue .body out) :
    ∃ m rest, queue = m :: rest
      ∧ out = wire hdr bdy done ++ hdr m ++ bdy m := by
  cases h with
  | body m rest => exact ⟨m, rest, rfl, rfl⟩

/-- In every situation the output is the finished messages and the
start of the front one. -/
theorem exists_part (h : Writing hdr bdy done queue stage out) :
    ∃ part, out = wire hdr bdy done ++ part
      ∧ part <+: (queue.head?.elim [] fun m => hdr m ++ bdy m) := by
  cases h with
  | idle => exact ⟨[], by simp, List.nil_prefix⟩
  | head m rest => exact ⟨hdr m, rfl, List.prefix_append _ _⟩
  | body m rest =>
      exact ⟨hdr m ++ bdy m, List.append_assoc .., List.prefix_refl _⟩
  | halted m rest part hp => exact ⟨part, rfl, hp⟩

end Writing

end Serial
