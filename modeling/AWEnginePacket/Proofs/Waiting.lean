/-
The queue lock by lock, and the queue with one consumer.

`SharedQueue` takes every method apart at its locks; `ThreadSafeQueue`
has one thread that waits and pops, and takes a pop, a test of `wait()`
and the first half of a push in one step each. Where the threads keep to
these roles (`Fits`), the first refines the second: what `seenBy` makes
of a state is a state of the second, and what a step makes of it is no
step there, one, or two (`seen_step`, `refines_with_one_consumer`).

So what holds of every run of the second holds of the first. A consumer
asleep over an item, with no push under way, is one whose notification
fell between its test and its lock (`never_overslept`), however the pops
of the consumer and the readings of others interleave with the pushes.

# The abstraction

A shell that a pop has left is no item. `m_MutesQueue` counts as held by
a push that has put its item in, and by nobody else: a consumer inside
and a push before its item are steps not yet taken, or over. A thread
that has been notified is awake.
-/
import AWEnginePacket.Proofs.SharedQueue
import AWEnginePacket.Proofs.WakeUp

namespace AWEnginePacket

open ThreadSafeQueue (Thread Consumer Producer End insertAt)

namespace SharedQueue

variable {T : Type} {q q' : SharedQueue T} {t u consumer : Nat} {c : Call T}
  {e : End} {x : Option T} {p : Point T} {act : Action T}

-- ================================================================= roles

/-- The consumer waits and pops the front, the others push, and anybody
may read. -/
def Call.Fits (consumer t : Nat) : Call T → Prop
  | .push _ _ => t ≠ consumer
  | .pop .front | .wait => t = consumer
  | .peek _ | .empty | .size => True
  | .pop .back | .clear => False

/-- Where threads in these roles are. -/
def Point.Fits (consumer t : Nat) : Point T → Prop
  | .entering c | .inside c => c.Fits consumer t
  | .moved e _ => t = consumer ∧ e = .front
  | .pushed | .signalling | .signalled => t ≠ consumer
  | .foundEmpty | .sawEmpty | .locked | .blocked | .woken | .relocked =>
      t = consumer
  | .idle | .leaving _ | .left _ => True

/-- Every thread keeps to its role. -/
def Fits (consumer : Nat) (q : SharedQueue T) : Prop :=
  ∀ t, (q.thread t).Fits consumer t

/-- Calls are made by those whose role it is. -/
def Roles (consumer : Nat) (_ : SharedQueue T) : Action T → Prop
  | .call t c => c.Fits consumer t
  | _ => True

instance (c : Call T) : Decidable (c.Fits consumer t) := by
  unfold Call.Fits
  split <;> infer_instance

instance (q : SharedQueue T) (act : Action T) :
    Decidable (Roles consumer q act) := by
  unfold Roles
  split <;> infer_instance

-- =========================================================== abstraction

/-- What the consumer's place stands for. -/
def Point.asConsumer : Point T → Consumer
  | .entering .wait | .inside .wait => .testing
  | .foundEmpty | .sawEmpty => .sawEmpty
  | .locked => .locked
  | .blocked => .blocked
  | .woken => .woken
  | .relocked => .relocked
  | _ => .idle

/-- What a producer's does. -/
def Point.asProducer : Point T → Producer
  | .pushed => .appended
  | .signalling => .locked
  | .signalled => .notified
  | .leaving .done => .unlocked
  | _ => .idle

/-- Whose thread it is. -/
def role (consumer t : Nat) : Thread :=
  if t = consumer then .consumer else .producer t

/-- The push that holds `m_MutesQueue`, its item in. -/
def pushing (consumer : Nat) (place : Nat → Point T) :
    Option Nat → Option Thread
  | none => none
  | some t =>
      if t ≠ consumer ∧ (place t).asProducer ≠ .idle then some (.producer t)
      else none

/-- The parts, seen with one consumer. -/
def view (consumer : Nat) (data : List (Option T)) (queue item : Option Nat)
    (place : Nat → Point T) : ThreadSafeQueue T where
  mData := data.filterMap id
  mMutesQueue := pushing consumer place queue
  mMutexItemPushed := item.map (role consumer)
  consumer := (place consumer).asConsumer
  producer p := if p = consumer then .idle else (place p).asProducer

/-- The queue, seen with one consumer. -/
def seenBy (consumer : Nat) (q : SharedQueue T) : ThreadSafeQueue T :=
  view consumer q.mData q.mMutesQueue q.mMutexItemPushed q.thread

variable {data : List (Option T)} {queue item : Option Nat}
  {place : Nat → Point T}

/-- Where the holder is what it was, so is the push. -/
theorem pushing_update
    (h : t ≠ consumer → (p.asProducer = .idle ↔ (place t).asProducer = .idle)) :
    pushing consumer (Function.update place t p) queue
      = pushing consumer place queue := by
  cases queue with
  | none => rfl
  | some u =>
      by_cases hu : u = t
      · subst hu
        by_cases hc : u = consumer
        · simp [pushing, hc]
        · simp [pushing, h hc]
      · simp [pushing, Function.update_of_ne hu]

/-- The consumer moves. -/
theorem view_consumer :
    view consumer data queue item (Function.update place consumer p)
      = { view consumer data queue item place with
          consumer := p.asConsumer } := by
  have hpush : pushing consumer (Function.update place consumer p) queue
      = pushing consumer place queue :=
    pushing_update fun h => absurd rfl h
  have hproducer : (fun u => if u = consumer then Producer.idle
      else (Function.update place consumer p u).asProducer)
        = fun u => if u = consumer then .idle else (place u).asProducer := by
    funext u
    by_cases hu : u = consumer
    · simp [hu]
    · simp [hu]
  simp [view, hpush, hproducer]

/-- A producer moves. -/
theorem view_producer (ht : t ≠ consumer) :
    view consumer data queue item (Function.update place t p)
      = { view consumer data queue item place with
          producer := Function.update
            (view consumer data queue item place).producer t p.asProducer
          mMutesQueue :=
            pushing consumer (Function.update place t p) queue } := by
  have hproducer : (fun u => if u = consumer then Producer.idle
      else (Function.update place t p u).asProducer)
        = Function.update (fun u => if u = consumer then .idle
            else (place u).asProducer) t p.asProducer := by
    funext u
    by_cases hu : u = t
    · subst hu
      simp [ht]
    · simp [Function.update_of_ne hu]
  simp [view, hproducer, Function.update_of_ne (Ne.symm ht)]

/-- Nothing is seen of the move. -/
theorem view_same (hconsumer : t = consumer → p.asConsumer = (place t).asConsumer)
    (hproducer : t ≠ consumer → p.asProducer = (place t).asProducer) :
    view consumer data queue item (Function.update place t p)
      = view consumer data queue item place := by
  by_cases ht : t = consumer
  · subst ht
    rw [view_consumer, hconsumer rfl]
    rfl
  · rw [view_producer ht, hproducer ht, pushing_update fun _ => by
      rw [hproducer ht]]
    have hsame : (place t).asProducer
        = (view consumer data queue item place).producer t := by
      simp [view, ht]
    rw [hsame, Function.update_eq_self]
    rfl

-- ============================================================ roles are kept

/-- A thread goes where its role may be. -/
theorem Fits.move (h : Fits consumer q) (hp : p.Fits consumer t) (u : Nat) :
    (Function.update q.thread t p u).Fits consumer u := by
  by_cases hu : u = t
  · subst hu
    rwa [Function.update_self]
  · rw [Function.update_of_ne hu]
    exact h u

theorem Fits.at (h : Fits consumer q) (ht : q.thread t = p) :
    p.Fits consumer t := by
  rw [← ht]
  exact h t

/-- A method keeps its thread in its role. -/
theorem fits_body {data data' : List (Option T)}
    (hc : c.Fits consumer t) (h : body c data = some (p, data')) :
    p.Fits consumer t := by
  cases c with
  | peek e =>
      obtain ⟨x, -, heq⟩ := Option.map_eq_some_iff.mp h
      cases heq
      trivial
  | pop e =>
      obtain ⟨x, -, heq⟩ := Option.map_eq_some_iff.mp h
      cases heq
      cases e with
      | front => exact ⟨hc, rfl⟩
      | back => exact hc.elim
  | push e item =>
      cases h
      exact hc
  | wait =>
      cases h
      split
      · exact hc
      · trivial
  | empty | size | clear =>
      cases h
      trivial

theorem fits_step (h : Fits consumer q) (hinv : Inv q)
    (hrole : Roles consumer q act) (hs : step act q = some q') :
    Fits consumer q' := by
  cases act with
  | call t c =>
      obtain ⟨ht, rfl⟩ := step_call.mp hs
      exact h.move hrole
  | lock t =>
      obtain ⟨c, ht, -, rfl⟩ := step_lock.mp hs
      have hold := h.at ht
      exact h.move hold
  | body t =>
      obtain ⟨c, p, data, ht, hbody, rfl⟩ := step_body.mp hs
      exact h.move (fits_body (h.at ht) hbody)
  | remove t =>
      obtain ⟨e, x, ht, rfl⟩ := step_remove.mp hs
      exact h.move trivial
  | lockPushed t =>
      obtain ⟨ht, -, rfl⟩ := step_lockPushed.mp hs
      have hold := h.at ht
      exact h.move hold
  | notifyOne t woken =>
      cases woken with
      | none =>
          obtain ⟨ht, -, rfl⟩ := step_notify_none.mp hs
          have hold := h.at ht
          exact h.move hold
      | some u =>
          obtain ⟨ht, hu, rfl⟩ := step_notify_some.mp hs
          have hold := h.at ht
          have hnext : Fits consumer (q.goTo t .signalled) := h.move hold
          have hwoken := h.at ((hinv.sleepers u).mp hu)
          exact hnext.move hwoken
  | unlockPushed t =>
      obtain ⟨ht, rfl⟩ := step_unlockPushed.mp hs
      exact h.move trivial
  | unlock t =>
      obtain ⟨p, hp, rfl⟩ := step_unlock.mp hs
      rcases hp with ⟨a, ht, rfl⟩ | ⟨ht, rfl⟩
      · exact h.move trivial
      · have hold := h.at ht
        exact h.move hold
  | ret t =>
      obtain ⟨a, ht, rfl⟩ := step_ret.mp hs
      exact h.move trivial
  | wake t =>
      obtain ⟨ht, rfl⟩ := step_wake.mp hs
      have hold := h.at ((hinv.sleepers t).mp ht)
      exact h.move hold
  | lockWait t =>
      obtain ⟨ht, -, rfl⟩ := step_lockWait.mp hs
      have hold := h.at ht
      exact h.move hold
  | sleep t =>
      obtain ⟨ht, rfl⟩ := step_sleep.mp hs
      have hold := h.at ht
      exact h.move hold
  | relock t =>
      obtain ⟨ht, -, rfl⟩ := step_relock.mp hs
      have hold := h.at ht
      exact h.move hold
  | unlockWait t =>
      obtain ⟨ht, rfl⟩ := step_unlockWait.mp hs
      have hold := h.at ht
      exact h.move hold

-- ============================================================ the simulation

/-- No notification falls between the consumer's test and its lock. -/
def Attentive (consumer : Nat) (q : SharedQueue T) : Action T → Prop
  | .notifyOne _ _ => q.thread consumer ≠ .sawEmpty
  | _ => True

instance [DecidableEq T] (q : SharedQueue T) (act : Action T) :
    Decidable (Attentive consumer q act) := by
  unfold Attentive
  split <;> infer_instance

/-- What is seen of a step: no step with one consumer, one, or two, and
quiet ones where the step is attentive. -/
def Matched (consumer : Nat) (q : SharedQueue T) (act : Action T)
    (r : ThreadSafeQueue T) : Prop :=
  ∃ bs, bs.length ≤ 2
    ∧ Lts.run ThreadSafeQueue.step (seenBy consumer q) bs = some r
    ∧ (Attentive consumer q act → Lts.Meets ThreadSafeQueue.step
      ThreadSafeQueue.Quiet (seenBy consumer q) bs)

theorem matched_none {r : ThreadSafeQueue T} (h : r = seenBy consumer q) :
    Matched consumer q act r :=
  ⟨[], Nat.zero_le 2, by rw [h]; rfl, fun _ => trivial⟩

theorem matched_one {r : ThreadSafeQueue T} (b : ThreadSafeQueue.Action T)
    (hquiet : Attentive consumer q act →
      ThreadSafeQueue.Quiet (seenBy consumer q) b)
    (hs : ThreadSafeQueue.step b (seenBy consumer q) = some r) :
    Matched consumer q act r :=
  ⟨[b], by simp, Lts.run_singleton.mpr hs,
    fun h => ⟨hquiet h, fun _ _ => trivial⟩⟩

/-- Only a push with its item in is seen to hold `m_MutesQueue`. -/
theorem pushing_idle (h : t ≠ consumer → (place t).asProducer = .idle) :
    pushing consumer place (some t) = none := by
  rw [pushing, if_neg]
  rintro ⟨ht, hp⟩
  exact hp (h ht)

theorem pushing_busy (ht : t ≠ consumer) (hp : p.asProducer ≠ .idle) :
    pushing consumer (Function.update place t p) (some t)
      = some (.producer t) := by
  rw [pushing, if_pos]
  simp [ht, hp]

/-- A push puts its item in. -/
theorem seen_push {item : T} (ht : q.thread t = .inside (.push e item))
    (hne : t ≠ consumer) (hq : q.mMutesQueue = some t) :
    ThreadSafeQueue.step (.push t e item) (seenBy consumer q)
      = some (seenBy consumer { q.goTo t .pushed with
          mData := insertAt e (some item) q.mData }) := by
  have hbefore : pushing consumer q.thread (some t) = none :=
    pushing_idle fun _ => by rw [ht]; rfl
  have hafter : pushing consumer (Function.update q.thread t .pushed)
      (some t) = some (.producer t) :=
    pushing_busy hne (by simp [Point.asProducer])
  have hdata : (insertAt e (some item) q.mData).filterMap id
      = insertAt e item (q.mData.filterMap id) := by
    cases e <;> simp [insertAt]
  rw [ThreadSafeQueue.step, if_pos]
  · simp only [seenBy, goTo, view_producer hne, hq, hafter]
    simp only [ThreadSafeQueue.setProducer, view, hdata]
    rfl
  · simp [seenBy, view, ht, hq, hbefore, Point.asProducer]

/-- A push goes on. -/
theorem seen_pushing (hne : t ≠ consumer)
    (hin : (q.thread t).asProducer ≠ .idle) (hp : p.asProducer ≠ .idle)
    (item : Option Nat) :
    seenBy consumer { q.goTo t p with mMutexItemPushed := item }
      = { (seenBy consumer q).setProducer t p.asProducer with
          mMutexItemPushed := item.map (role consumer) } := by
  have hpush : pushing consumer (Function.update q.thread t p) q.mMutesQueue
      = pushing consumer q.thread q.mMutesQueue :=
    pushing_update fun _ => iff_of_false hp hin
  simp only [seenBy, goTo, view_producer hne, hpush]
  rfl

theorem seen_pushLock (ht : q.thread t = .pushed) (hne : t ≠ consumer)
    (hfree : q.mMutexItemPushed = none) :
    ThreadSafeQueue.step (.pushLock t) (seenBy consumer q)
      = some (seenBy consumer { q.goTo t .signalling with
          mMutexItemPushed := some t }) := by
  rw [ThreadSafeQueue.step, if_pos,
    seen_pushing hne (by simp [ht, Point.asProducer])
      (by simp [Point.asProducer])]
  · simp [role, hne, Point.asProducer]
  · simp [seenBy, view, ht, hne, hfree, Point.asProducer]

theorem seen_pushUnlock (ht : q.thread t = .signalled) (hne : t ≠ consumer) :
    ThreadSafeQueue.step (.pushUnlock t) (seenBy consumer q)
      = some (seenBy consumer { q.goTo t (.leaving .done) with
          mMutexItemPushed := none }) := by
  rw [ThreadSafeQueue.step, if_pos,
    seen_pushing hne (by simp [ht, Point.asProducer])
      (by simp [Point.asProducer])]
  · simp [Point.asProducer]
  · simp [seenBy, view, ht, hne, Point.asProducer]

theorem seen_pushReturn (ht : q.thread t = .leaving .done)
    (hne : t ≠ consumer) :
    ThreadSafeQueue.step (.pushReturn t) (seenBy consumer q)
      = some (seenBy consumer { q.goTo t (.left .done) with
          mMutesQueue := none }) := by
  rw [ThreadSafeQueue.step, if_pos]
  · simp only [seenBy, goTo, view_producer hne]
    rfl
  · simp [seenBy, view, ht, hne, Point.asProducer]

/-- The consumer goes on. -/
theorem seen_consumer (p : Point T) (item : Option Nat)
    (waiting : Finset Nat) :
    seenBy t { q.goTo t p with
        mMutexItemPushed := item, mItemPushed := waiting }
      = { seenBy t q with
          consumer := p.asConsumer
          mMutexItemPushed := item.map (role t) } := by
  simp only [seenBy, goTo, view_consumer]
  rfl

theorem seen_lockWait (ht : q.thread t = .sawEmpty)
    (hfree : q.mMutexItemPushed = none) :
    ThreadSafeQueue.step .lockItemPushed (seenBy t q)
      = some (seenBy t { q.goTo t .locked with
          mMutexItemPushed := some t }) := by
  rw [ThreadSafeQueue.step, if_pos]
  · simp [seen_consumer, Point.asConsumer, role]
  · simp [seenBy, view, ht, hfree, Point.asConsumer]

theorem seen_sleep (ht : q.thread t = .locked) :
    ThreadSafeQueue.step .block (seenBy t q)
      = some (seenBy t { q.goTo t .blocked with
          mMutexItemPushed := none
          mItemPushed := insert t q.mItemPushed }) := by
  rw [ThreadSafeQueue.step, if_pos, seen_consumer]
  · rfl
  · simp [seenBy, view, ht, Point.asConsumer]

theorem seen_wake (ht : q.thread t = .blocked) :
    ThreadSafeQueue.step .wake (seenBy t q)
      = some (seenBy t { q.goTo t .woken with
          mItemPushed := q.mItemPushed.erase t }) := by
  rw [ThreadSafeQueue.step, if_pos, seen_consumer]
  · rfl
  · simp [seenBy, view, ht, Point.asConsumer]

theorem seen_relock (ht : q.thread t = .woken)
    (hfree : q.mMutexItemPushed = none) :
    ThreadSafeQueue.step .relock (seenBy t q)
      = some (seenBy t { q.goTo t .relocked with
          mMutexItemPushed := some t }) := by
  rw [ThreadSafeQueue.step, if_pos]
  · simp [seen_consumer, Point.asConsumer, role]
  · simp [seenBy, view, ht, hfree, Point.asConsumer]

theorem seen_unlockWait (ht : q.thread t = .relocked) :
    ThreadSafeQueue.step .unlockItemPushed (seenBy t q)
      = some (seenBy t { q.goTo t (.entering .wait) with
          mMutexItemPushed := none }) := by
  rw [ThreadSafeQueue.step, if_pos, seen_consumer]
  · rfl
  · simp [seenBy, view, ht, Point.asConsumer]

theorem filterMap_whole {items : List T} :
    (items.map some).filterMap id = items := by
  simp [List.filterMap_map]

/-- The consumer inside of a method. -/
theorem seen_inside (p : Point T) (data : List (Option T)) :
    seenBy t { q.goTo t p with mData := data }
      = { seenBy t q with
          mData := data.filterMap id, consumer := p.asConsumer } := by
  simp only [seenBy, goTo, view_consumer]
  rfl

/-- A pop moves the front item out. -/
theorem seen_pop {items : List T} (ht : q.thread t = .inside (.pop .front))
    (hq : q.mMutesQueue = some t) (hdata : q.mData = items.map some)
    (hitem : itemAt .front q.mData = some x) :
    ThreadSafeQueue.step .popFront (seenBy t q)
      = some (seenBy t { q.goTo t (.moved .front x) with
          mData := insertAt .front none (removeAt .front q.mData) }) := by
  have hfree : pushing t q.thread (some t) = none :=
    pushing_idle fun h => absurd rfl h
  have hbefore : (seenBy t q).mData = items := by
    rw [seenBy, view, hdata, filterMap_whole]
  have hafter : (insertAt .front none
      (removeAt .front q.mData)).filterMap id = items.tail := by
    rw [hdata, removeAt_map, insertAt, List.filterMap_cons_none rfl,
      filterMap_whole, removeAt]
  have hne : items ≠ [] := by
    rintro rfl
    rw [hdata] at hitem
    cases hitem
  have hidle : (seenBy t q).consumer = .idle := by
    simp [seenBy, view, ht, Point.asConsumer]
  have hmoved : (Point.moved .front x).asConsumer = .idle := rfl
  rw [ThreadSafeQueue.step, if_pos]
  · rw [seen_inside, hafter, hbefore, hmoved, ← hidle]
  · rw [hbefore]
    refine ⟨hidle, ?_, hne⟩
    rw [seenBy, hq]
    exact hfree

/-- The test of `wait()`. -/
theorem seen_empty {items : List T} (ht : q.thread t = .inside .wait)
    (hq : q.mMutesQueue = some t) (hdata : q.mData = items.map some) :
    ThreadSafeQueue.step .empty (seenBy t q)
      = some (seenBy t (q.goTo t (if q.mData.isEmpty then .foundEmpty
          else .leaving .done))) := by
  have hfree : pushing t q.thread (some t) = none :=
    pushing_idle fun h => absurd rfl h
  have hsame : (seenBy t q).mData.isEmpty = q.mData.isEmpty := by
    rw [seenBy, view, hdata, filterMap_whole, List.isEmpty_map]
  rw [ThreadSafeQueue.step, if_pos]
  · rw [hsame]
    simp only [seenBy, goTo, view_consumer]
    cases q.mData.isEmpty <;> rfl
  · simp [seenBy, view, ht, hq, hfree, Point.asConsumer]

theorem Point.asConsumer_blocked : p.asConsumer = .blocked ↔ p = .blocked := by
  rw [Point.asConsumer.eq_def]
  split <;> simp_all

theorem Point.asConsumer_sawEmpty :
    p.asConsumer = .sawEmpty ↔ p = .foundEmpty ∨ p = .sawEmpty := by
  rw [Point.asConsumer.eq_def]
  split <;> simp_all

/-- A push notifies. -/
theorem seen_notify (ht : q.thread t = .signalling) (hne : t ≠ consumer) :
    ThreadSafeQueue.step (.notifyOne t) (seenBy consumer q)
      = some { seenBy consumer (q.goTo t .signalled) with
          signalled := (seenBy consumer q).consumer = .blocked } := by
  have hin : (q.thread t).asProducer ≠ .idle := by
    simp [ht, Point.asProducer]
  have hseen : seenBy consumer (q.goTo t .signalled)
      = (seenBy consumer q).setProducer t .notified :=
    seen_pushing hne hin (by simp [Point.asProducer]) q.mMutexItemPushed
  rw [ThreadSafeQueue.step, if_pos]
  · rw [hseen]
    rfl
  · simp [seenBy, view, ht, hne, Point.asProducer]

/-- What is not seen: the place and `m_Data` look the same, and no push
holds `m_MutesQueue` that did not. -/
theorem seen_same {data : List (Option T)} {queue : Option Nat}
    {history : List (Atomic.Event Nat (Call T) (Answer T))}
    (hconsumer : t = consumer → p.asConsumer = (q.thread t).asConsumer)
    (hproducer : t ≠ consumer → p.asProducer = (q.thread t).asProducer)
    (hdata : data.filterMap id = q.mData.filterMap id)
    (hqueue : pushing consumer q.thread queue
      = pushing consumer q.thread q.mMutesQueue) :
    seenBy consumer { q.goTo t p with
        mData := data, mMutesQueue := queue, history := history }
      = seenBy consumer q := by
  simp only [seenBy, goTo, view_same hconsumer hproducer]
  simp only [view, hdata, hqueue]

variable {o : Atomic.Object Nat (List T) (Call T) (Answer T)}

/-- The first work of a method. -/
theorem seen_body (hinv : Inv q) (habs : Abstracts q o) (h : Fits consumer q)
    (hs : step (.body t) q = some q') :
    Matched consumer q (.body t) (seenBy consumer q') := by
  obtain ⟨c, p, data, ht, hbody, rfl⟩ := step_body.mp hs
  have hfits := h.at ht
  have hwhole := habs.whole_inside hinv ht
  have hq : q.mMutesQueue = some t := by
    refine (hinv.queue t).mp ?_
    rw [ht]
    trivial
  cases c with
  | peek e =>
      obtain ⟨x, -, heq⟩ := Option.map_eq_some_iff.mp hbody
      cases heq
      refine matched_none (seen_same ?_ ?_ rfl rfl)
      · rw [ht]
        exact fun _ => rfl
      · rw [ht]
        exact fun _ => rfl
  | pop e =>
      obtain ⟨x, hx, heq⟩ := Option.map_eq_some_iff.mp hbody
      cases heq
      cases e with
      | back => exact hfits.elim
      | front =>
          have hconsumer : t = consumer := hfits
          subst hconsumer
          exact matched_one .popFront (fun _ => trivial)
            (seen_pop ht hq hwhole hx)
  | push e item =>
      cases hbody
      exact matched_one (.push t e item) (fun _ => trivial)
        (seen_push ht hfits hq)
  | wait =>
      have hconsumer : t = consumer := hfits
      subst hconsumer
      cases hbody
      exact matched_one .empty (fun _ => trivial) (seen_empty ht hq hwhole)
  | empty | size =>
      cases hbody
      refine matched_none (seen_same ?_ ?_ rfl rfl)
      · rw [ht]
        exact fun _ => rfl
      · rw [ht]
        exact fun _ => rfl
  | clear => exact hfits.elim

/-- A call: only one of `wait()` is seen. -/
theorem seen_call (hs : step (.call t c) q = some q')
    (hc : c.Fits consumer t) :
    Matched consumer q (.call t c) (seenBy consumer q') := by
  obtain ⟨ht, rfl⟩ := step_call.mp hs
  by_cases hwait : c = .wait
  · subst hwait
    have hconsumer : t = consumer := hc
    subst hconsumer
    refine matched_one .wait (fun _ => trivial) ?_
    rw [ThreadSafeQueue.step, if_pos]
    · simp only [seenBy, goTo, view_consumer]
      rfl
    · simp [seenBy, view, ht, Point.asConsumer]
  · refine matched_none (seen_same ?_ ?_ rfl rfl)
    · rw [ht]
      intro _
      cases c <;> first | rfl | exact absurd rfl hwait
    · rw [ht]
      exact fun _ => rfl

theorem seen_unlock (hinv : Inv q) (h : Fits consumer q)
    (hs : step (.unlock t) q = some q') :
    Matched consumer q (.unlock t) (seenBy consumer q') := by
  obtain ⟨p, hp, rfl⟩ := step_unlock.mp hs
  have hq : (q.thread t).HoldsQueue → q.mMutesQueue = some t :=
    (hinv.queue t).mp
  rcases hp with ⟨a, ht, rfl⟩ | ⟨ht, rfl⟩
  · by_cases hpush : t ≠ consumer ∧ a = .done
    · obtain ⟨hne, rfl⟩ := hpush
      exact matched_one (.pushReturn t) (fun _ => trivial)
        (seen_pushReturn ht hne)
    · have hidle (hne : t ≠ consumer) :
          (q.thread t).asProducer = .idle := by
        rw [ht]
        cases a <;> first | rfl | exact absurd ⟨hne, rfl⟩ hpush
      refine matched_none (seen_same ?_ ?_ rfl ?_)
      · rw [ht]
        exact fun _ => rfl
      · intro hne
        rw [hidle hne]
        rfl
      · rw [hq (by rw [ht]; trivial), pushing_idle hidle]
        rfl
  · have hconsumer : t = consumer := h.at ht
    refine matched_none (seen_same ?_ ?_ rfl ?_)
    · rw [ht]
      exact fun _ => rfl
    · exact fun hne => absurd hconsumer hne
    · rw [hq (by rw [ht]; trivial),
        pushing_idle fun hne => absurd hconsumer hne]
      rfl

/-- Whom a push wakes can only be the consumer. -/
theorem seen_notifyOne {woken : Option Nat} (hinv : Inv q)
    (h : Fits consumer q) (hs : step (.notifyOne t woken) q = some q') :
    Matched consumer q (.notifyOne t woken) (seenBy consumer q') := by
  have hquiet (ht : q.thread t = .signalling)
      (hattentive : q.thread consumer ≠ .sawEmpty) :
      ThreadSafeQueue.Quiet (seenBy consumer q) (.notifyOne t) := by
    intro hsaw
    rcases Point.asConsumer_sawEmpty.mp hsaw with hfound | hsaw
    · -- the push is inside, so the consumer is not
      have hsame := hinv.queue.unique (t := consumer) (u := t)
        (by rw [hfound]; trivial) (by rw [ht]; trivial)
      rw [hsame, ht] at hfound
      cases hfound
    · exact hattentive hsaw
  cases woken with
  | none =>
      obtain ⟨ht, hempty, rfl⟩ := step_notify_none.mp hs
      have hawake : (seenBy consumer q).consumer ≠ .blocked := by
        intro hblocked
        have hmem := (hinv.sleepers consumer).mpr
          (Point.asConsumer_blocked.mp hblocked)
        rw [hempty] at hmem
        cases hmem
      refine matched_one (.notifyOne t) (hquiet ht) ?_
      rw [seen_notify ht (h.at ht), decide_eq_false hawake]
      rfl
  | some u =>
      obtain ⟨ht, hu, rfl⟩ := step_notify_some.mp hs
      have hblocked := (hinv.sleepers u).mp hu
      have hconsumer : u = consumer := h.at hblocked
      subst hconsumer
      have hne : t ≠ u := h.at ht
      have hasleep : (seenBy u (q.goTo t .signalled)).consumer = .blocked :=
        Point.asConsumer_blocked.mpr
          ((Function.update_of_ne hne.symm ..).trans hblocked)
      refine ⟨[.notifyOne t, .wake], Nat.le_refl 2,
        Lts.run_cons (seen_notify ht hne) (Lts.run_singleton.mpr ?_),
        fun hattentive => ⟨hquiet ht hattentive, fun _ _ =>
          ⟨trivial, fun _ _ => trivial⟩⟩⟩
      rw [ThreadSafeQueue.step, if_pos hasleep]
      have hwoken := seen_consumer (t := u) (q := q.goTo t .signalled) .woken
        q.mMutexItemPushed (q.mItemPushed.erase u)
      exact congrArg some hwoken.symm

/-- What is seen of a step. -/
theorem seen_step (hinv : Inv q) (habs : Abstracts q o)
    (h : Fits consumer q) (hrole : Roles consumer q act)
    (hs : step act q = some q') :
    Matched consumer q act (seenBy consumer q') := by
  cases act with
  | call t c => exact seen_call hs hrole
  | lock t =>
      obtain ⟨c, ht, hfree, rfl⟩ := step_lock.mp hs
      have hidle (_ : t ≠ consumer) : (q.thread t).asProducer = .idle := by
        rw [ht]
        rfl
      refine matched_none (seen_same ?_ ?_ rfl ?_)
      · rw [ht]
        intro _
        cases c <;> rfl
      · rw [ht]
        exact fun _ => rfl
      · rw [hfree, pushing_idle hidle]
        rfl
  | body t => exact seen_body hinv habs h hs
  | remove t =>
      obtain ⟨e, x, ht, rfl⟩ := step_remove.mp hs
      obtain ⟨hconsumer, rfl⟩ := h.at ht
      have hdata := habs.shelled t .front (by rw [ht]; rfl)
      refine matched_none (seen_same ?_ ?_ ?_ rfl)
      · rw [ht]
        exact fun _ => rfl
      · exact fun hne => absurd hconsumer hne
      · rw [hdata, removeAt_insertAt, insertAt,
          List.filterMap_cons_none rfl]
  | lockPushed t =>
      obtain ⟨ht, hfree, rfl⟩ := step_lockPushed.mp hs
      exact matched_one (.pushLock t) (fun _ => trivial)
        (seen_pushLock ht (h.at ht) hfree)
  | notifyOne t woken => exact seen_notifyOne hinv h hs
  | unlockPushed t =>
      obtain ⟨ht, rfl⟩ := step_unlockPushed.mp hs
      exact matched_one (.pushUnlock t) (fun _ => trivial)
        (seen_pushUnlock ht (h.at ht))
  | unlock t => exact seen_unlock hinv h hs
  | ret t =>
      obtain ⟨a, ht, rfl⟩ := step_ret.mp hs
      refine matched_none (seen_same ?_ ?_ rfl rfl)
      · rw [ht]
        exact fun _ => rfl
      · rw [ht]
        exact fun _ => rfl
  | wake t =>
      obtain ⟨ht, rfl⟩ := step_wake.mp hs
      have hblocked := (hinv.sleepers t).mp ht
      have hconsumer : t = consumer := h.at hblocked
      subst hconsumer
      exact matched_one .wake (fun _ => trivial) (seen_wake hblocked)
  | lockWait t =>
      obtain ⟨ht, hfree, rfl⟩ := step_lockWait.mp hs
      have hconsumer : t = consumer := h.at ht
      subst hconsumer
      exact matched_one .lockItemPushed (fun _ => trivial)
        (seen_lockWait ht hfree)
  | sleep t =>
      obtain ⟨ht, rfl⟩ := step_sleep.mp hs
      have hconsumer : t = consumer := h.at ht
      subst hconsumer
      exact matched_one .block (fun _ => trivial) (seen_sleep ht)
  | relock t =>
      obtain ⟨ht, hfree, rfl⟩ := step_relock.mp hs
      have hconsumer : t = consumer := h.at ht
      subst hconsumer
      exact matched_one .relock (fun _ => trivial) (seen_relock ht hfree)
  | unlockWait t =>
      obtain ⟨ht, rfl⟩ := step_unlockWait.mp hs
      have hconsumer : t = consumer := h.at ht
      subst hconsumer
      exact matched_one .unlockItemPushed (fun _ => trivial)
        (seen_unlockWait ht)

-- ================================================================== runs

theorem seen_start : seenBy consumer ({} : SharedQueue T) = {} := by
  simp [seenBy, view, pushing, Point.asConsumer, Point.asProducer]

/-- Threads that keep to their roles, and what the rest of the queue is
then. -/
structure Kept (consumer : Nat) (q : SharedQueue T) : Prop where
  inv : Inv q
  abstracts : ∃ o, Abstracts q o
  fits : Fits consumer q

theorem kept_start : Kept consumer ({} : SharedQueue T) := by
  have hrun : Lts.run step ({} : SharedQueue T) [] = some {} := rfl
  obtain ⟨hinv, o, -, habs⟩ := reaches_abstract hrun
  exact ⟨hinv, ⟨o, habs⟩, fun _ => trivial⟩

theorem kept_step (h : Kept consumer q) (hrole : Roles consumer q act)
    (hs : step act q = some q') : Kept consumer q' := by
  obtain ⟨o, habs⟩ := h.abstracts
  obtain ⟨o', -, habs'⟩ := abstracts_step h.inv habs hs
  exact ⟨inv_step h.inv hs, ⟨o', habs'⟩, fits_step h.fits h.inv hrole hs⟩

/-- What is seen of a step of a thread in its role. -/
theorem Kept.matched (h : Kept consumer q) (hrole : Roles consumer q act)
    (hs : step act q = some q') :
    Matched consumer q act (seenBy consumer q') := by
  obtain ⟨o, habs⟩ := h.abstracts
  exact seen_step h.inv habs h.fits hrole hs

/-- As long as the threads keep to their roles, a run with one consumer is
seen, step by step: every state of the run is seen as one that the second
model reaches, and what is seen of every further step is no step there,
one, or two. -/
theorem refines_with_one_consumer (acts : List (Action T))
    (hroles : Lts.Meets step (Roles consumer) {} acts)
    (hrun : Lts.run step {} acts = some q) :
    Lts.Reaches ThreadSafeQueue.step {} (seenBy consumer q)
      ∧ ∀ act q', Roles consumer q act → step act q = some q' →
        ∃ bs, bs.length ≤ 2
          ∧ Lts.run ThreadSafeQueue.step (seenBy consumer q) bs
            = some (seenBy consumer q') := by
  have hstart : Lts.Reaches ThreadSafeQueue.step {}
      (seenBy consumer ({} : SharedQueue T)) := by
    rw [seen_start]
    exact .refl _
  have hkept : Kept consumer q
      ∧ Lts.Reaches ThreadSafeQueue.step {} (seenBy consumer q) := by
    refine Lts.run_invariant_of_meets (fun q => Kept consumer q
      ∧ Lts.Reaches ThreadSafeQueue.step {} (seenBy consumer q))
      ?_ ⟨kept_start, hstart⟩ hroles hrun
    rintro q act q' ⟨h, hreach⟩ hrole hs
    obtain ⟨bs, -, hbs, -⟩ := h.matched hrole hs
    exact ⟨kept_step h hrole hs, hreach.trans ⟨bs, hbs⟩⟩
  obtain ⟨h, hreach⟩ := hkept
  refine ⟨hreach, fun act q' hrole hs => ?_⟩
  obtain ⟨bs, hlength, hbs, -⟩ := h.matched hrole hs
  exact ⟨bs, hlength, hbs⟩

/-- The handover, and the consumer's next call. -/
theorem refines_with_one_consumer_handover :
    ∃ q q' : SharedQueue Nat, Lts.run step {} handover = some q
      ∧ step (.call 1 .wait) q = some q'
      ∧ Lts.Reaches ThreadSafeQueue.step {} (seenBy 1 q)
      ∧ ∃ bs, bs.length ≤ 2
        ∧ Lts.run ThreadSafeQueue.step (seenBy 1 q) bs
          = some (seenBy 1 q') := by
  have hroles : Lts.Meets step (Roles 1) ({} : SharedQueue Nat) handover := by
    decide +kernel
  obtain ⟨q, q', hrun, hcall⟩ : ∃ q q' : SharedQueue Nat,
      Lts.run step {} handover = some q ∧ step (.call 1 .wait) q = some q' :=
    ⟨_, _, rfl, rfl⟩
  obtain ⟨hreach, hmatched⟩ := refines_with_one_consumer handover hroles hrun
  exact ⟨q, q', hrun, hcall, hreach,
    hmatched (.call 1 .wait) q' (show (1 : Nat) = 1 from rfl) hcall⟩

/-- While the consumer sleeps, no pop has left a shell. -/
theorem Kept.seen_ne_nil (h : Kept consumer q)
    (hasleep : q.thread consumer = .blocked) (hne : q.mData ≠ []) :
    (seenBy consumer q).mData ≠ [] := by
  obtain ⟨o, habs⟩ := h.abstracts
  have hwhole : q.mData = o.state.map some := by
    refine habs.whole fun t => ?_
    cases ht : q.thread t with
    | moved e x =>
        obtain ⟨hconsumer, -⟩ := h.fits.at ht
        rw [hconsumer, hasleep] at ht
        cases ht
    | _ => rfl
  have hseen : (seenBy consumer q).mData = o.state := by
    rw [seenBy, view, hwhole, filterMap_whole]
  intro hnil
  rw [hwhole, ← hseen, hnil] at hne
  exact hne rfl

/-- A push that is seen to have yet to notify. -/
theorem notifying_of_seen
    (h : ThreadSafeQueue.Notifying ((seenBy consumer q).producer t)) :
    q.thread t = .pushed ∨ q.thread t = .signalling := by
  by_cases ht : t = consumer
  · simp [ThreadSafeQueue.Notifying, seenBy, view, ht] at h
  · simp only [ThreadSafeQueue.Notifying, seenBy, view, if_neg ht] at h
    rw [Point.asProducer.eq_def] at h
    split at h <;> simp_all

/-- As long as no notification falls between the consumer's test and its
lock, it sleeps over an item only while the push of one has yet to
notify. -/
theorem never_overslept (acts : List (Action T))
    (hmeets : Lts.Meets step (fun q act => Roles consumer q act
      ∧ Attentive consumer q act) {} acts)
    (hrun : Lts.run step {} acts = some q)
    (hasleep : q.thread consumer = .blocked) (hne : q.mData ≠ []) :
    ∃ t, q.thread t = .pushed ∨ q.thread t = .signalling := by
  have hstart : ThreadSafeQueue.Inv
      (seenBy consumer ({} : SharedQueue T)) := by
    rw [seen_start]
    exact ThreadSafeQueue.inv_start
  have hkept : Kept consumer q
      ∧ ThreadSafeQueue.Inv (seenBy consumer q) := by
    refine Lts.run_invariant_of_meets (fun q => Kept consumer q
      ∧ ThreadSafeQueue.Inv (seenBy consumer q))
      ?_ ⟨kept_start, hstart⟩ hmeets hrun
    rintro q act q' ⟨h, hseen⟩ ⟨hrole, hattentive⟩ hs
    obtain ⟨bs, -, hbs, hquiet⟩ := h.matched hrole hs
    exact ⟨kept_step h hrole hs, Lts.run_invariant_of_meets _
      (fun q a q' h hg hs => ThreadSafeQueue.inv_step h hg hs) hseen
      (hquiet hattentive) hbs⟩
  obtain ⟨h, hseen⟩ := hkept
  have hresigned : ThreadSafeQueue.Resigned (seenBy consumer q) :=
    .inr (.inr ⟨Point.asConsumer_blocked.mpr hasleep, rfl⟩)
  obtain ⟨t, ht⟩ := hseen.attended hresigned (h.seen_ne_nil hasleep hne)
  exact ⟨t, notifying_of_seen ht⟩

/-- After the handover the first thread waits again, wakes for nothing,
and sleeps; a third one has put an item in. -/
def overPush : List (Action Nat) :=
  handover ++ [.call 1 .wait, .lock 1, .body 1, .unlock 1, .lockWait 1,
    .sleep 1, .wake 1, .relock 1, .unlockWait 1, .lock 1, .body 1, .unlock 1,
    .lockWait 1, .sleep 1, .call 3 (.push .front 8), .lock 3, .body 3]

theorem never_overslept_overPush :
    ∃ q : SharedQueue Nat, Lts.run step {} overPush = some q
      ∧ ∃ t, q.thread t = .pushed ∨ q.thread t = .signalling := by
  have hmeets : Lts.Meets step (fun q act => Roles 1 q act
      ∧ Attentive 1 q act) ({} : SharedQueue Nat) overPush := by
    decide +kernel
  obtain ⟨q, hrun, hstate⟩ : ∃ q : SharedQueue Nat,
      Lts.run step {} overPush = some q
        ∧ decide (q.thread 1 = .blocked ∧ q.mData ≠ []) = true := by
    refine Option.map_eq_some_iff.mp ?_
    decide +kernel
  obtain ⟨hasleep, hne⟩ := of_decide_eq_true hstate
  exact ⟨q, hrun, never_overslept overPush hmeets hrun hasleep hne⟩

end SharedQueue

end AWEnginePacket
