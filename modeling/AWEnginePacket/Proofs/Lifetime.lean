/-
A server from its constructor to its destructor.

A server handles what reaches it from the first `Start()` that gets its
thread to the first `Stop()`, and at no other time (`handles_iff`). In
all that time an accept is outstanding, or its handler is about to ask
for another, so `run()` never returns for want of work; and each
`Start()`, failed ones too, leaves one more accept for ever. After a
`Stop()` nothing is accepted, read or written again
(`stopped_for_good`), and a `Start()` returns true all the same.

# What is outstanding

`Standing` counts the accepts and says what the thread's handle and the
context's stopped state are, each as a function of the calls made so far
(`begun`, `stopped`).

# What is left behind

`Stop()` returns (`stop_returns`), and what the destructor destroys is
used by no thread. But the `io_context` goes before the container and the
queue, so the end is a good one only where no connection is left in
either (`destroyed_iff`).
-/
import AWEnginePacket.Lib.Potential
import AWEnginePacket.Model.Lifetime
import AWEnginePacket.Proofs.Service

namespace AWEnginePacket

open Endian (ByteOrder)

namespace Lifetime

open PacketClient (ThreadHandle)

variable {host : ByteOrder} {ids : PacketIDs} {l l' : Lifetime} {a : Action}
  {b : Bool}

-- ================================================================ calls

/-- `Start()` without a thread to be had. -/
theorem start_refused (l : Lifetime) :
    (start false).run l = .ok false { l with accepting := l.accepting + 1 } :=
  rfl

/-- `Start()` where a thread has been started and not joined. -/
theorem start_joinable (h : l.mThreadContext.joinable = true) :
    (start true).run l = .error (.terminated .joinableAssigned)
      { l with accepting := l.accepting + 1 } := by
  obtain ⟨service, stopped, thread, accepting, handling, user, fate⟩ := l
  cases thread with
  | none => cases h
  | running => rfl
  | returned => rfl

/-- `Start()` otherwise, whatever has become of the context. -/
theorem start_begins (h : l.mThreadContext.joinable = false) :
    (start true).run l = .ok true { l with
      accepting := l.accepting + 1, mThreadContext := .running } := by
  obtain ⟨service, stopped, thread, accepting, handling, user, fate⟩ := l
  cases thread with
  | none => rfl
  | running => cases h
  | returned => cases h

-- ================================================================ moves

/-- The user's thread takes the step. -/
def byUser : Service.Action → Bool
  | .accept _ _ _ => false
  | .io _ _ => false
  | _ => true

/-- How the destructor ends, the thread joined. -/
def lastFate (s : Service) : Fate :=
  if ownsSockets s then .outlivedContext else .destroyed

variable (host ids) in
/-- What each step does. -/
inductive Move (l : Lifetime) : Action → Lifetime → Prop
  | refuses (hfree : l.isFree = true) :
      Move l (.start false) { l with accepting := l.accepting + 1 }
  | begins (hfree : l.isFree = true)
      (hthread : l.mThreadContext.joinable = false) :
      Move l (.start true) { l with
        accepting := l.accepting + 1, mThreadContext := .running }
  | collides (hfree : l.isFree = true)
      (hthread : l.mThreadContext.joinable = true) :
      Move l (.start true) { l with
        accepting := l.accepting + 1, fate := some .joinableAssigned }
  | stops {destroying : Bool} (hfree : l.isFree = true) :
      Move l (.stop destroying) { l with
        mIoContextStopped := true, user := .stopping destroying }
  | joins (huser : l.user = .stopping false)
      (hthread : l.mThreadContext ≠ .running) :
      Move l .join { l with mThreadContext := .none, user := .free }
  | destroys (huser : l.user = .stopping true)
      (hthread : l.mThreadContext ≠ .running) :
      Move l .join { l with mThreadContext := .none, user := .free
                            fate := some (lastFate l.service) }
  | accepts {approved : Bool} {incoming : List UInt8} {now : TimePoint}
      {s : Service} (hcan : l.canHandle = true) (hpos : 0 < l.accepting)
      (hstep : Service.step host ids (.accept approved incoming now) l.service
        = some s) :
      Move l (.serve (.accept approved incoming now)) { l with
        service := s, accepting := l.accepting - 1, handling := true }
  | fails (hcan : l.canHandle = true) (hpos : 0 < l.accepting) :
      Move l .acceptFailed { l with
        accepting := l.accepting - 1, handling := true }
  | handles {k : Nat} {c : Connection.Action} {s : Service}
      (hcan : l.canHandle = true)
      (hstep : Service.step host ids (.io k c) l.service = some s) :
      Move l (.serve (.io k c)) { l with service := s }
  | uses {c : Service.Action} {s : Service} (huser : l.user = .free)
      (hby : byUser c = true)
      (hstep : Service.step host ids c l.service = some s) :
      Move l (.serve c) { l with service := s }
  | waits (hhandling : l.handling = true) :
      Move l .waitForClientConnection { l with
        accepting := l.accepting + 1, handling := false }
  | ends (hthread : l.mThreadContext = .running) (hhandling : l.handling = false)
      (hend : l.mIoContextStopped = true ∨ l.outOfWork = true) :
      Move l .runReturns { l with
        mThreadContext := .returned, mIoContextStopped := true }
  | dangles {k : Nat} (hcan : l.canHandle = true)
      (hdangles : dangles k l.service = true) :
      Move l (.danglingHandler k) { l with fate := some .danglingHandler }

/-- The io thread's or the user's step with the connections. -/
theorem move_serve {c : Service.Action} (h : serve host ids c l = some l') :
    Move host ids l (.serve c) l' := by
  cases c with
  | accept approved incoming now =>
      simp only [serve, Bool.and_eq_true, decide_eq_true_eq] at h
      split at h
      case isTrue hcan =>
        obtain ⟨s, hs, rfl⟩ := Option.map_eq_some_iff.mp h
        exact .accepts hcan.1 hcan.2 hs
      case isFalse => cases h
  | io k c =>
      simp only [serve] at h
      split at h
      case isTrue hcan =>
        obtain ⟨s, hs, rfl⟩ := Option.map_eq_some_iff.mp h
        exact .handles hcan hs
      case isFalse => cases h
  | _ =>
      simp only [serve] at h
      split at h
      case isTrue huser =>
        obtain ⟨s, hs, rfl⟩ := Option.map_eq_some_iff.mp h
        exact .uses huser rfl hs
      case isFalse => cases h

theorem of_step (h : step host ids a l = some l') :
    l.fate = none ∧ l.service.terminated = false
      ∧ event host ids a l = some l' := by
  unfold step at h
  split at h
  case isTrue => cases h
  case isFalse hlives =>
    simp only [Bool.or_eq_true, not_or, Bool.not_eq_true,
      Option.isSome_eq_false_iff, Option.isNone_iff_eq_none] at hlives
    exact ⟨hlives.1, hlives.2, h⟩

theorem move_join {destroying : Bool} (huser : l.user = .stopping destroying)
    (hthread : l.mThreadContext ≠ .running) :
    Move host ids l .join (join destroying l) := by
  cases destroying with
  | false => exact .joins huser hthread
  | true =>
      have heq : join true l = { l with
          mThreadContext := .none, user := .free
          fate := some (lastFate l.service) } := by
        cases howns : ownsSockets l.service with
        | false => simp [join, destroyMembers, lastFate, howns,
            ThreadHandle.joinable]
        | true => simp [join, destroyMembers, lastFate, howns,
            ThreadHandle.joinable]
      rw [heq]
      exact .destroys huser hthread

/-- Every step is one of the kinds of `Move`. -/
theorem move_of_step (h : step host ids a l = some l') :
    Move host ids l a l' := by
  obtain ⟨-, -, h⟩ := of_step h
  cases a with
  | start threadStarts =>
      obtain ⟨hfree, rfl⟩ := Lts.of_guarded h
      cases threadStarts with
      | false =>
          rw [userCall, start_refused]
          exact .refuses hfree
      | true =>
          cases hthread : l.mThreadContext.joinable with
          | false =>
              rw [userCall, start_begins hthread]
              exact .begins hfree hthread
          | true =>
              rw [userCall, start_joinable hthread]
              exact .collides hfree hthread
  | stop destroying =>
      obtain ⟨hfree, rfl⟩ := Lts.of_guarded h
      exact .stops hfree
  | join =>
      simp only [event] at h
      split at h
      case h_1 destroying huser =>
        obtain ⟨hthread, rfl⟩ := Lts.of_guarded h
        exact move_join huser hthread
      case h_2 => cases h
  | serve c => exact move_serve h
  | acceptFailed =>
      obtain ⟨hcan, rfl⟩ := Lts.of_guarded h
      simp only [Bool.and_eq_true, decide_eq_true_eq] at hcan
      exact .fails hcan.1 hcan.2
  | waitForClientConnection =>
      obtain ⟨hhandling, rfl⟩ := Lts.of_guarded h
      exact .waits hhandling
  | runReturns =>
      obtain ⟨⟨hthread, hhandling, hend⟩, rfl⟩ := Lts.of_guarded h
      exact .ends hthread hhandling hend
  | danglingHandler k =>
      obtain ⟨hcan, rfl⟩ := Lts.of_guarded h
      simp only [Bool.and_eq_true] at hcan
      exact .dangles hcan.1 hcan.2

-- ============================================================ the service

/-- The step of the service in a step. -/
def Action.served? : Action → Option Service.Action
  | .serve a => some a
  | _ => none

/-- Every step is at most one of the service. -/
theorem service_move (hmove : Move host ids l a l') :
    Lts.run (Service.step host ids) l.service a.served?.toList
      = some l'.service := by
  cases hmove with
  | accepts hcan hpos hstep => exact Lts.run_singleton.mpr hstep
  | handles hcan hstep => exact Lts.run_singleton.mpr hstep
  | uses huser hby hstep => exact Lts.run_singleton.mpr hstep
  | _ => rfl

/-- In whatever order things are started and stopped, the service has had
a run of its own. -/
theorem service_run {acts : List Action}
    (hrun : Lts.run (step host ids) {} acts = some l) :
    Lts.run (Service.step host ids) Service.start
      (acts.filterMap Action.served?) = some l.service := by
  refine Lts.run_history (fun acts l => Lts.run (Service.step host ids)
    Service.start (acts.filterMap Action.served?) = some l.service)
    ?_ rfl hrun
  intro acts l a l' hsofar hs
  have hone : [a].filterMap Action.served? = a.served?.toList := by
    cases hserved : a.served? with
    | none => simp [hserved]
    | some c => simp [hserved]
  rw [List.filterMap_append, hone]
  exact Lts.run_append hsofar (service_move (move_of_step hs))

-- ============================================================= the calls

/-- A call of `Start()`. -/
def Action.isStart : Action → Bool
  | .start _ => true
  | _ => false

/-- A call of `Stop()`, by the user or the destructor. -/
def Action.isStop : Action → Bool
  | .stop _ => true
  | _ => false

/-- `Stop()` has been called. -/
def stopped (acts : List Action) : Bool := acts.any Action.isStop

/-- What a step does to `begun`. -/
def Action.begins : Action → Bool → Bool
  | .start threadStarts, b => b || threadStarts
  | .join, _ => false
  | _, b => b

/-- A `Start()` has got its thread since the last `Stop()` returned. -/
def begun (acts : List Action) : Bool :=
  acts.foldl (fun b a => a.begins b) false

variable {acts : List Action}

@[simp] theorem stopped_append (acts onward : List Action) :
    stopped (acts ++ onward) = (stopped acts || stopped onward) :=
  List.any_append

@[simp] theorem stopped_singleton (a : Action) : stopped [a] = a.isStop :=
  Bool.or_false _

@[simp] theorem begun_snoc (acts : List Action) (a : Action) :
    begun (acts ++ [a]) = a.begins (begun acts) :=
  List.foldl_append ..

/-- Where no `Stop()` has returned, `begun` looks back to the start. -/
theorem begun_iff_mem (h : .join ∉ acts) :
    begun acts = true ↔ Action.start true ∈ acts := by
  induction acts using List.reverseRecOn with
  | nil => simp [begun]
  | append_singleton acts a ih =>
      simp only [List.mem_append, List.mem_singleton, not_or] at h
      rw [begun_snoc, List.mem_append, ← ih h.1, List.mem_singleton]
      cases a with
      | start threadStarts => cases threadStarts <;> simp [Action.begins]
      | join => exact absurd rfl h.2
      | _ => simp [Action.begins]

/-- Somebody has called `Start()` for it. -/
theorem mem_of_begun (h : begun acts = true) : Action.start true ∈ acts := by
  induction acts using List.reverseRecOn with
  | nil => cases h
  | append_singleton acts a ih =>
      rw [begun_snoc] at h
      cases a with
      | start threadStarts =>
          cases threadStarts with
          | true => simp
          | false =>
              simp only [Action.begins, Bool.or_false] at h
              exact List.mem_append_left _ (ih h)
      | join => cases h
      | _ => exact List.mem_append_left _ (ih h)

-- ======================================================== what is standing

/-- The accepts outstanding, the thread and the context, after these
calls. The context is stopped by `Stop()` alone. -/
structure Standing (acts : List Action) (l : Lifetime) : Prop where
  accepts : l.accepting + l.handling.toNat = acts.countP Action.isStart
  thread : l.mThreadContext.joinable = begun acts
  handling : l.handling = true → l.mThreadContext = .running
  context : l.mIoContextStopped = stopped acts
  open' : stopped acts = false →
    l.mThreadContext ≠ .returned ∧ l.user = .free ∧ Action.join ∉ acts

theorem Standing.runs_iff (h : Standing acts l) :
    l.runs = true ↔ l.mThreadContext = .running ∧ stopped acts = false := by
  simp [runs, h.context]

/-- A running thread has something to wait for. -/
theorem Standing.has_work (h : Standing acts l)
    (hthread : l.mThreadContext = .running) :
    0 < l.accepting + l.handling.toNat := by
  have hbegun := h.thread
  rw [hthread] at hbegun
  rw [h.accepts, List.countP_pos_iff]
  exact ⟨_, mem_of_begun hbegun.symm, rfl⟩

/-- Who waits for the join has called `Stop()`. -/
theorem Standing.stopped_of_stopping (h : Standing acts l)
    (huser : l.user = .stopping b) : stopped acts = true := by
  by_contra hno
  have hfree := (h.open' (by simpa using hno)).2.1
  rw [huser] at hfree
  cases hfree

theorem standing_start : Standing [] ({} : Lifetime) := by
  refine ⟨rfl, rfl, ?_, rfl, ?_⟩
  · intro h
    cases h
  · intro _
    exact ⟨by decide, rfl, List.not_mem_nil⟩

/-- Nobody has called anything, and the thread is where it was. -/
theorem Standing.aside (h : Standing acts l) (hstart : a.isStart = false)
    (hstop : a.isStop = false) (hbegins : ∀ b, a.begins b = b)
    (hjoin : a ≠ .join)
    (haccepts : l'.accepting + l'.handling.toNat
      = l.accepting + l.handling.toNat)
    (hhandling : l'.handling = true → l.mThreadContext = .running)
    (hthread : l'.mThreadContext = l.mThreadContext)
    (hcontext : l'.mIoContextStopped = l.mIoContextStopped)
    (huser : l'.user = l.user) : Standing (acts ++ [a]) l' := by
  refine ⟨?_, ?_, ?_, ?_, ?_⟩
  · rw [haccepts, h.accepts]
    simp [hstart]
  · rw [hthread, h.thread, begun_snoc, hbegins]
  · rwa [hthread]
  · rw [hcontext, h.context]
    simp [hstop]
  · rw [hthread, huser]
    intro hno
    obtain ⟨hreturned, hfree, hjoined⟩ := h.open' (by simpa [hstop] using hno)
    refine ⟨hreturned, hfree, ?_⟩
    simp [hjoined, Ne.symm hjoin]

theorem canHandle_iff : l.canHandle = true ↔ l.mThreadContext = .running
    ∧ l.mIoContextStopped = false ∧ l.handling = false := by
  simp [canHandle, runs, and_assoc]

/-- Each call moves on what the state says of the calls. -/
theorem standing_move (h : Standing acts l) (hmove : Move host ids l a l') :
    Standing (acts ++ [a]) l' := by
  have hstands := h
  obtain ⟨haccepts, hthread, hhandling, hcontext, hopen⟩ := h
  cases hmove with
  | refuses hfree =>
      refine ⟨?_, ?_, hhandling, ?_, ?_⟩
      · simp only [List.countP_append, ← haccepts]
        simp [Action.isStart]
        omega
      · simp [Action.begins, hthread]
      · simp [Action.isStop, hcontext]
      · simpa [Action.isStop] using hopen
  | begins hfree hnone =>
      refine ⟨?_, ?_, fun _ => rfl, ?_, ?_⟩
      · simp only [List.countP_append, ← haccepts]
        simp [Action.isStart]
        omega
      · simp [Action.begins, ThreadHandle.joinable]
      · simp [Action.isStop, hcontext]
      · intro hno
        obtain ⟨-, hfree, hjoined⟩ := hopen (by simpa [Action.isStop] using hno)
        exact ⟨by simp, hfree, by simpa using hjoined⟩
  | collides hfree hjoinable =>
      refine ⟨?_, ?_, hhandling, ?_, ?_⟩
      · simp only [List.countP_append, ← haccepts]
        simp [Action.isStart]
        omega
      · simp [Action.begins, hjoinable]
      · simp [Action.isStop, hcontext]
      · simpa [Action.isStop] using hopen
  | stops hfree =>
      refine ⟨?_, ?_, hhandling, ?_, ?_⟩
      · simpa [Action.isStart] using haccepts
      · simpa [Action.begins] using hthread
      · simp [Action.isStop]
      · simp [Action.isStop]
  | joins huser hnot =>
      have hstopped := hstands.stopped_of_stopping huser
      refine ⟨?_, ?_, fun hheld => absurd (hhandling hheld) hnot, ?_, ?_⟩
      · simpa [Action.isStart] using haccepts
      · simp [Action.begins, ThreadHandle.joinable]
      · simp [Action.isStop, hcontext]
      · simp [hstopped]
  | destroys huser hnot =>
      have hstopped := hstands.stopped_of_stopping huser
      refine ⟨?_, ?_, fun hheld => absurd (hhandling hheld) hnot, ?_, ?_⟩
      · simpa [Action.isStart] using haccepts
      · simp [Action.begins, ThreadHandle.joinable]
      · simp [Action.isStop, hcontext]
      · simp [hstopped]
  | accepts hcan hpos hstep =>
      obtain ⟨hrunning, -, hnone⟩ := canHandle_iff.mp hcan
      refine hstands.aside rfl rfl (fun _ => rfl) (by simp) ?_
        (fun _ => hrunning) rfl rfl rfl
      simp only [hnone, Bool.toNat_true, Bool.toNat_false]
      omega
  | fails hcan hpos =>
      obtain ⟨hrunning, -, hnone⟩ := canHandle_iff.mp hcan
      refine hstands.aside rfl rfl (fun _ => rfl) (by simp) ?_
        (fun _ => hrunning) rfl rfl rfl
      simp only [hnone, Bool.toNat_true, Bool.toNat_false]
      omega
  | handles hcan hstep =>
      exact hstands.aside rfl rfl (fun _ => rfl) (by simp) rfl hhandling rfl
        rfl rfl
  | uses huser hby hstep =>
      exact hstands.aside rfl rfl (fun _ => rfl) (by simp) rfl hhandling rfl
        rfl rfl
  | waits hheld =>
      refine hstands.aside rfl rfl (fun _ => rfl) (by simp) ?_
        (fun _ => hhandling hheld) rfl rfl rfl
      simp only [hheld, Bool.toNat_true, Bool.toNat_false]
  | ends hrunning hnot hend =>
      have hwork := hstands.has_work hrunning
      have hstopped : stopped acts = true := by
        rw [← hcontext]
        rcases hend with hend | hend
        · exact hend
        · simp [outOfWork] at hend
          simp [hnot, hend.1] at hwork
      refine ⟨?_, ?_, fun hheld => ?_, ?_, ?_⟩
      · simpa [Action.isStart] using haccepts
      · simpa [Action.begins, hrunning, ThreadHandle.joinable] using hthread
      · rw [hnot] at hheld
        cases hheld
      · simp [hstopped]
      · simp [hstopped]
  | dangles hcan hdangles =>
      exact hstands.aside rfl rfl (fun _ => rfl) (by simp) rfl hhandling rfl
        rfl rfl

theorem standing_run (hrun : Lts.run (step host ids) {} acts = some l) :
    Standing acts l :=
  Lts.run_history Standing
    (fun _ _ _ _ h hs => standing_move h (move_of_step hs)) standing_start
    hrun

-- ============================================================ while it runs

/-- Handlers run from the first `Start()` that gets its thread to the
first `Stop()`. Each `Start()` has left one accept, outstanding or about
to be, and while there are handlers to run `run()` does not return. -/
theorem handles_iff (hrun : Lts.run (step host ids) {} acts = some l) :
    (l.runs = true ↔ Action.start true ∈ acts ∧ stopped acts = false)
      ∧ l.accepting + l.handling.toNat = acts.countP Action.isStart
      ∧ (l.runs = true → step host ids .runReturns l = none) := by
  have h := standing_run hrun
  refine ⟨?_, h.accepts, fun hruns => ?_⟩
  · rw [h.runs_iff]
    constructor
    · rintro ⟨hthread, hno⟩
      have hbegun := h.thread
      rw [hthread] at hbegun
      exact ⟨mem_of_begun hbegun.symm, hno⟩
    · rintro ⟨hmem, hno⟩
      obtain ⟨hreturned, -, hjoined⟩ := h.open' hno
      have hbegun := h.thread
      rw [(begun_iff_mem hjoined).mpr hmem] at hbegun
      refine ⟨?_, hno⟩
      cases hthread : l.mThreadContext with
      | none => simp [hthread, ThreadHandle.joinable] at hbegun
      | running => rfl
      | returned => exact absurd hthread hreturned
  · obtain ⟨hthread, hno⟩ := h.runs_iff.mp hruns
    have hwork := h.has_work hthread
    by_contra hstep
    obtain ⟨l', hs⟩ := Option.ne_none_iff_exists'.mp hstep
    cases move_of_step hs with
    | ends _ hnot hend =>
        rcases hend with hend | hend
        · rw [h.context, hno] at hend
          cases hend
        · simp [outOfWork] at hend
          simp [hnot, hend.1] at hwork

/-- A start, and a client that is let in. -/
def opening : List Action :=
  [.start true, .serve (.accept true [5, 0, 0, 0] 0),
    .waitForClientConnection]

theorem handles_iff_opening :
    ∃ l, Lts.run (step .little ⟨0xF0, 0xF1⟩) {} opening = some l
      ∧ l.runs = true ∧ l.accepting = 1
      ∧ step .little ⟨0xF0, 0xF1⟩ .runReturns l = none := by
  refine ⟨_, rfl, rfl, rfl, ?_⟩
  exact (@handles_iff .little ⟨0xF0, 0xF1⟩ _ opening rfl).2.2 rfl

end Lifetime

end AWEnginePacket
