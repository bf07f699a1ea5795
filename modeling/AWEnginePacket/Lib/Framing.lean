/-
Length-delimited frames: a fixed-length header that says how long the
body after it is.

A `Format` says how long a header is, what it decodes to, and which
body length the decoded header announces. `split` is the receiver's
rule: take a header, take the announced body, repeat, and keep what is
left over. Three facts are proved about it for every format:

- a well-formed frame in front of anything is split off, and nothing
  else changes (`split_cons`, `split_frames`);
- what is split off is exactly what was in the stream
  (`next_eq_some_iff`);
- a sender's stream splits back into the sender's frames if and only if
  every header announces the length of the body behind it
  (`split_sent_iff`). One wrong header is enough to break it: the first
  one already yields a body of another length.
-/
import Mathlib.Data.List.Basic

namespace Framing

/-- A frame format over units `β`, with decoded headers in `η`. -/
structure Format (β : Type*) (η : Type*) where
  headerLength : Nat
  headerLength_pos : 0 < headerLength
  /-- What `headerLength` units decode to. -/
  decode : List β → η
  /-- The body length a header announces. -/
  bodyLength : η → Nat

namespace Format

variable {β : Type*} {η : Type*} (fmt : Format β η)

-- ============================================================ splitting

/-- The first frame of a stream and what follows it, once all of it is
there. -/
def next (l : List β) : Option ((η × List β) × List β) :=
  if l.length < fmt.headerLength then none
  else
    let h := fmt.decode (l.take fmt.headerLength)
    let rest := l.drop fmt.headerLength
    if rest.length < fmt.bodyLength h then none
    else some ((h, rest.take (fmt.bodyLength h)), rest.drop (fmt.bodyLength h))

/-- Split off at most `n` frames. -/
def splitFuel : Nat → List β → List (η × List β) × List β
  | 0, l => ([], l)
  | n + 1, l =>
      match fmt.next l with
      | none => ([], l)
      | some (f, rest) =>
          let r := splitFuel n rest
          (f :: r.1, r.2)

/-- The receiver's rule: the frames of a stream and the incomplete tail
after them. A frame is at least a header long, so the stream's own
length is fuel enough. -/
def split (l : List β) : List (η × List β) × List β :=
  fmt.splitFuel l.length l

/-- Header and body of one frame, as a sender lays them down: the
header has the right length and announces the body behind it. -/
structure IsFrame (hb body : List β) : Prop where
  header_length : hb.length = fmt.headerLength
  body_length : body.length = fmt.bodyLength (fmt.decode hb)

-- ============================================================ one frame

/-- What `next` splits off is what the stream began with. -/
theorem next_eq_some_iff {l rest body : List β} {h : η} :
    fmt.next l = some ((h, body), rest)
      ↔ ∃ hb, l = hb ++ body ++ rest ∧ fmt.IsFrame hb body
          ∧ fmt.decode hb = h := by
  unfold next
  constructor
  · intro hn
    split at hn
    case isTrue => cases hn
    case isFalse hlen =>
      simp only at hn
      split at hn
      case isTrue => cases hn
      case isFalse hbody =>
        injection hn with hn
        injection hn with hf hrest
        injection hf with hh hb
        refine ⟨l.take fmt.headerLength, ?_, ⟨?_, ?_⟩, hh⟩
        · rw [← hb, ← hrest, List.append_assoc, List.take_append_drop,
            List.take_append_drop]
        · rw [List.length_take]
          omega
        · rw [← hb, List.length_take]
          omega
  · rintro ⟨hb, rfl, hf, rfl⟩
    have htake : (hb ++ body ++ rest).take fmt.headerLength = hb := by
      rw [List.append_assoc, ← hf.header_length, List.take_left]
    have hdrop : (hb ++ body ++ rest).drop fmt.headerLength
        = body ++ rest := by
      rw [List.append_assoc, ← hf.header_length, List.drop_left]
    rw [htake, hdrop]
    have hlen := hf.header_length
    have hbody := hf.body_length
    rw [if_neg (by simp only [List.length_append]; omega)]
    simp only
    rw [if_neg (by simp only [List.length_append]; omega), ← hbody,
      List.take_left, List.drop_left]

/-- A well-formed frame in front of anything is the next one. -/
theorem next_append {hb body : List β} (hf : fmt.IsFrame hb body)
    (rest : List β) :
    fmt.next (hb ++ body ++ rest) = some ((fmt.decode hb, body), rest) :=
  fmt.next_eq_some_iff.mpr ⟨hb, rfl, hf, rfl⟩

/-- More of the stream does not change the next frame. -/
theorem next_append_right {l rest : List β} {f : η × List β}
    (h : fmt.next l = some (f, rest)) (more : List β) :
    fmt.next (l ++ more) = some (f, rest ++ more) := by
  obtain ⟨η, body⟩ := f
  obtain ⟨hb, rfl, hf, hd⟩ := fmt.next_eq_some_iff.mp h
  refine fmt.next_eq_some_iff.mpr ⟨hb, ?_, hf, hd⟩
  rw [List.append_assoc]

/-- Splitting off a frame shortens the stream. -/
theorem next_length_lt {l rest : List β} {f : η × List β}
    (h : fmt.next l = some (f, rest)) : rest.length < l.length := by
  obtain ⟨hb, rfl, hf, -⟩ := fmt.next_eq_some_iff.mp h
  have hpos := fmt.headerLength_pos
  have hlen := hf.header_length
  simp only [List.length_append]
  omega

-- ========================================================= whole streams

/-- Any two amounts of fuel that cover the stream's length agree. -/
private theorem splitFuel_congr :
    ∀ (n m : Nat) (l : List β), l.length ≤ n → l.length ≤ m →
      fmt.splitFuel n l = fmt.splitFuel m l := by
  have hzero : ∀ (m : Nat) (l : List β), l.length ≤ 0 →
      fmt.splitFuel m l = ([], l) := by
    intro m l hl
    have hnone : fmt.next l = none := by
      rw [next, if_pos (Nat.lt_of_le_of_lt hl fmt.headerLength_pos)]
    cases m with
    | zero => rfl
    | succ m => rw [splitFuel, hnone]
  intro n
  induction n with
  | zero =>
      intro m l hn _
      rw [hzero 0 l hn, hzero m l hn]
  | succ n ih =>
      intro m l hn hm
      cases m with
      | zero => rw [hzero (n + 1) l hm, hzero 0 l hm]
      | succ m =>
          rw [splitFuel, splitFuel]
          cases hnext : fmt.next l with
          | none => rfl
          | some fr =>
              have hlt := fmt.next_length_lt hnext
              simp only
              rw [ih m fr.2 (by omega) (by omega)]

/-- Fuel beyond the stream's length changes nothing. -/
theorem splitFuel_eq_split {n : Nat} {l : List β} (h : l.length ≤ n) :
    fmt.splitFuel n l = fmt.split l :=
  fmt.splitFuel_congr n l.length l h (Nat.le_refl _)

/-- A stream with no complete frame is all tail. -/
theorem split_of_next_none {l : List β} (h : fmt.next l = none) :
    fmt.split l = ([], l) := by
  rw [split]
  cases l.length with
  | zero => rfl
  | succ n => rw [splitFuel, h]

/-- A stream with a next frame is that frame and the split of what
follows. -/
theorem split_of_next_some {l rest : List β} {f : η × List β}
    (h : fmt.next l = some (f, rest)) :
    fmt.split l = (f :: (fmt.split rest).1, (fmt.split rest).2) := by
  have hlt := fmt.next_length_lt h
  cases hlen : l.length with
  | zero => omega
  | succ n =>
      rw [split, hlen, splitFuel, h]
      simp only
      rw [fmt.splitFuel_eq_split (by omega)]

@[simp] theorem split_nil : fmt.split [] = ([], []) := rfl

/-- A well-formed frame in front of a stream is split off first. -/
theorem split_cons {hb body : List β} (hf : fmt.IsFrame hb body)
    (rest : List β) :
    fmt.split (hb ++ body ++ rest)
      = ((fmt.decode hb, body) :: (fmt.split rest).1, (fmt.split rest).2) :=
  fmt.split_of_next_some (fmt.next_append hf rest)

/-- The induction rule of streams: by their first frame, where there is
one. -/
theorem stream_induction {P : List β → Prop}
    (tail : ∀ l, fmt.next l = none → P l)
    (frame : ∀ l f rest, fmt.next l = some (f, rest) → P rest → P l)
    (l : List β) : P l := by
  induction hlen : l.length using Nat.strongRecOn generalizing l with
  | ind n ih =>
      cases hn : fmt.next l with
      | none => exact tail l hn
      | some fr =>
          have hlt := fmt.next_length_lt hn
          exact frame l fr.1 fr.2 hn (ih fr.2.length (by omega) fr.2 rfl)

/-- A stream that splits without a tail is split off in front of
anything. -/
theorem split_append {l : List β} (h : (fmt.split l).2 = [])
    (rest : List β) :
    fmt.split (l ++ rest)
      = ((fmt.split l).1 ++ (fmt.split rest).1, (fmt.split rest).2) := by
  induction l using fmt.stream_induction with
  | tail l hn =>
      rw [fmt.split_of_next_none hn] at h ⊢
      obtain rfl : l = [] := h
      rfl
  | frame l f l' hn ih =>
      rw [fmt.split_of_next_some hn] at h ⊢
      have hl' := ih h
      obtain ⟨hb, rfl, hf, hd⟩ := fmt.next_eq_some_iff.mp hn
      rw [List.append_assoc, fmt.split_cons hf, hl', hd]
      rfl

/-- Every frame split off is as long as its header says. -/
theorem length_of_mem_split {l : List β} {f : η × List β}
    (h : f ∈ (fmt.split l).1) : f.2.length = fmt.bodyLength f.1 := by
  induction l using fmt.stream_induction with
  | tail l hn =>
      rw [fmt.split_of_next_none hn] at h
      cases h
  | frame l g rest hn ih =>
      rw [fmt.split_of_next_some hn] at h
      rcases List.mem_cons.mp h with rfl | h
      · obtain ⟨hb, -, hf, hd⟩ := fmt.next_eq_some_iff.mp hn
        rw [← hd]
        exact hf.body_length
      · exact ih h

-- ============================================================== cursors

/-- A reader has taken the frames `fs` off the stream and stands in
front of `rest`. -/
def Cursor (stream : List β) (fs : List (η × List β)) (rest : List β) :
    Prop :=
  ∃ taken, stream = taken ++ rest ∧ fmt.split taken = (fs, [])

variable {fmt} {stream rest rest' : List β} {fs : List (η × List β)}
  {f : η × List β}

/-- At the start nothing is taken. -/
theorem Cursor.start : fmt.Cursor stream [] stream := ⟨[], rfl, rfl⟩

/-- Taking the next frame. -/
theorem Cursor.advance (h : fmt.Cursor stream fs rest)
    (hn : fmt.next rest = some (f, rest')) :
    fmt.Cursor stream (fs ++ [f]) rest' := by
  obtain ⟨taken, rfl, hsplit⟩ := h
  obtain ⟨η, body⟩ := f
  obtain ⟨hb, rfl, hf, rfl⟩ := fmt.next_eq_some_iff.mp hn
  refine ⟨taken ++ (hb ++ body), ?_, ?_⟩
  · simp only [List.append_assoc]
  · have hone := fmt.split_cons hf []
    rw [List.append_nil, split_nil] at hone
    rw [fmt.split_append (by rw [hsplit]), hsplit, hone]

/-- More of the stream arrives. -/
theorem Cursor.append (h : fmt.Cursor stream fs rest) (more : List β) :
    fmt.Cursor (stream ++ more) fs (rest ++ more) := by
  obtain ⟨taken, rfl, hsplit⟩ := h
  exact ⟨taken, List.append_assoc taken rest more, hsplit⟩

/-- What is taken are the stream's first frames. -/
theorem Cursor.frames (h : fmt.Cursor stream fs rest) :
    (fmt.split stream).1 = fs ++ (fmt.split rest).1 := by
  obtain ⟨taken, rfl, hsplit⟩ := h
  rw [fmt.split_append (by rw [hsplit]), hsplit]

/-- And what is left over is left over of the rest. -/
theorem Cursor.tail (h : fmt.Cursor stream fs rest) :
    (fmt.split stream).2 = (fmt.split rest).2 := by
  obtain ⟨taken, rfl, hsplit⟩ := h
  rw [fmt.split_append (by rw [hsplit])]

/-- A reader that has taken no frame stands at the start. -/
theorem Cursor.eq_stream (h : fmt.Cursor stream [] rest) : rest = stream := by
  obtain ⟨taken, rfl, hsplit⟩ := h
  cases hn : fmt.next taken with
  | none =>
      rw [fmt.split_of_next_none hn] at hsplit
      injection hsplit with _ htaken
      rw [htaken, List.nil_append]
  | some fr =>
      rw [fmt.split_of_next_some hn] at hsplit
      injection hsplit with hfs _
      cases hfs

/-- Past an incomplete frame, the frames taken are those of the units
taken. -/
theorem Cursor.taken {part : List β}
    (h : fmt.Cursor stream fs (part ++ rest)) (hn : fmt.next part = none) :
    (fmt.split (stream.take (stream.length - rest.length))).1 = fs := by
  obtain ⟨taken, rfl, hsplit⟩ := h
  have htake : (taken ++ (part ++ rest)).take
      ((taken ++ (part ++ rest)).length - rest.length) = taken ++ part := by
    rw [← List.append_assoc, List.length_append, Nat.add_sub_cancel,
      List.take_left]
  rw [htake, fmt.split_append (by rw [hsplit]), hsplit,
    fmt.split_of_next_none hn, List.append_nil]

/-- The first frame of a kind that none of the taken ones is, where it
is next. -/
theorem Cursor.find?_eq {p : η × List β → Bool}
    (h : fmt.Cursor stream fs rest) (hfs : ∀ g ∈ fs, p g = false)
    (hn : fmt.next rest = some (f, rest')) (hf : p f = true) :
    (fmt.split stream).1.find? p = some f := by
  have hnone : fs.find? p = none := by
    rw [List.find?_eq_none]
    intro g hg
    rw [hfs g hg]
    exact Bool.false_ne_true
  rw [h.frames, fmt.split_of_next_some hn, List.find?_append, hnone,
    Option.none_or, List.find?_cons_of_pos hf]

variable (fmt)

-- ============================================================== senders

variable {α : Type*} (hdr : α → List β) (body : α → List β)

/-- The stream of a sender that lays down header and body of each
message in turn. -/
def sent (xs : List α) : List β := xs.flatMap fun x => hdr x ++ body x

theorem sent_cons (x : α) (xs : List α) :
    sent hdr body (x :: xs) = hdr x ++ body x ++ sent hdr body xs := rfl

theorem sent_append (xs ys : List α) :
    sent hdr body (xs ++ ys) = sent hdr body xs ++ sent hdr body ys :=
  List.flatMap_append

/-- Well-formed frames in front of a stream are split off in order. -/
theorem split_frames {xs : List α}
    (hf : ∀ x ∈ xs, fmt.IsFrame (hdr x) (body x)) (rest : List β) :
    fmt.split (sent hdr body xs ++ rest)
      = (xs.map (fun x => (fmt.decode (hdr x), body x)) ++ (fmt.split rest).1,
          (fmt.split rest).2) := by
  induction xs with
  | nil => rfl
  | cons x xs ih =>
      have hx := hf x (List.mem_cons_self ..)
      have hxs := ih fun y hy => hf y (List.mem_cons_of_mem _ hy)
      rw [sent_cons, List.append_assoc, fmt.split_cons hx, hxs]
      rfl

/-- The frames taken off a part of a sender's stream are its first
messages. -/
theorem Cursor.eq_take_of_sent {stream rest : List β}
    {fs : List (η × List β)} {xs : List α} (h : fmt.Cursor stream fs rest)
    (hpart : stream <+: sent hdr body xs)
    (hf : ∀ x ∈ xs, fmt.IsFrame (hdr x) (body x)) :
    fs = (xs.take fs.length).map fun x => (fmt.decode (hdr x), body x) := by
  obtain ⟨more, hmore⟩ := hpart
  have hfs := (h.append more).frames
  have hall := fmt.split_frames hdr body hf []
  rw [List.append_nil, split_nil, List.append_nil] at hall
  rw [hmore, hall] at hfs
  have hfs : xs.map (fun x => (fmt.decode (hdr x), body x)) = fs ++ _ := hfs
  rw [List.map_take, hfs, List.take_left]

/-- The first frame taken off a part of a stream is its first message. -/
theorem Cursor.head?_of_part {stream rest tail hb b : List β}
    {fs : List (η × List β)} (h : fmt.Cursor stream fs rest)
    (hpart : stream <+: hb ++ b ++ tail) (hf : fmt.IsFrame hb b) :
    ∀ f ∈ fs.head?, f = (fmt.decode hb, b) := by
  obtain ⟨more, hmore⟩ := hpart
  have hfs := (h.append more).frames
  rw [hmore, fmt.split_cons hf] at hfs
  intro f hhead
  cases fs with
  | nil => cases hhead
  | cons g fs =>
      injection hfs with hg _
      rw [← Option.mem_some_iff.mp hhead, hg]

/-- A sender whose headers have the right length is understood exactly
when each of them announces its own body: the receiver's split gives
back the sender's sequence if and only if no header lies. The two
sequences are compared by whatever `key` of the headers matters. -/
theorem split_sent_iff {κ : Type*} (key : η → κ)
    (hlen : ∀ x, (hdr x).length = fmt.headerLength) (xs : List α) :
    ((fmt.split (sent hdr body xs)).1.map (Prod.map key id)
        = xs.map (fun x => (key (fmt.decode (hdr x)), body x))
      ∧ (fmt.split (sent hdr body xs)).2 = [])
      ↔ ∀ x ∈ xs, fmt.bodyLength (fmt.decode (hdr x)) = (body x).length := by
  constructor
  · intro hsplit
    induction xs with
    | nil => intro x hx; cases hx
    | cons x xs ih =>
        rw [sent_cons] at hsplit
        obtain ⟨hframes, htail⟩ := hsplit
        cases hn : fmt.next (hdr x ++ body x ++ sent hdr body xs) with
        | none => rw [fmt.split_of_next_none hn] at hframes; cases hframes
        | some fr =>
            obtain ⟨⟨h, b⟩, rest⟩ := fr
            rw [fmt.split_of_next_some hn] at hframes htail
            rw [List.map_cons, List.map_cons, List.cons.injEq, Prod.map,
              Prod.mk.injEq] at hframes
            obtain ⟨⟨-, hb⟩, hrest⟩ := hframes
            obtain ⟨hb', hcut, hf, hdec⟩ := fmt.next_eq_some_iff.mp hn
            -- the first frame split off has the first message's own body,
            -- so its header told the truth and the tails agree
            have hhdr : hb' = hdr x := by
              have := List.append_inj_left
                (by simpa only [List.append_assoc] using hcut.symm)
                (by rw [hf.header_length, hlen])
              exact this
            subst hhdr
            have hbody : b = body x := hb
            subst hbody
            have hsame : sent hdr body xs = rest :=
              List.append_cancel_left hcut
            have hxs := ih (by rw [hsame]; exact ⟨hrest, htail⟩)
            intro y hy
            rcases List.mem_cons.mp hy with rfl | hy
            · exact hf.body_length.symm
            · exact hxs y hy
  · intro hall
    have h := fmt.split_frames hdr body
      (fun x hx => ⟨hlen x, (hall x hx).symm⟩) []
    rw [List.append_nil, split_nil, List.append_nil] at h
    rw [h, List.map_map]
    exact ⟨rfl, rfl⟩

end Format

end Framing
