/-
The end of a server: `Stop()`, and the destructor.

`Stop()` is final. The context stays stopped, no handler begins again,
and of all that the server does only what its user does is left: nobody
is accepted, nothing is read or written, no handler closes a connection,
and the queue only gets shorter. What remains is that a connection with
no owner left is destroyed, and its socket with it. A later `Start()`
returns true like any other (`stopped_for_good`).

`Stop()` returns, whatever the io thread is in when it is called
(`stop_returns`): the thread has a handler to end and `run()` to leave.

The destructor therefore gets to its members, with the thread joined. The
`io_context` is destroyed before the container and the queue, and a
socket in either of them after the context it belongs to. So the end is
well defined only where the server has nobody left: where
`OnClientDisconnect` has been called for all it let in, and `Update()`
has taken all it received (`destroyed_iff`).
-/
import AWEnginePacket.Lib.Potential
import AWEnginePacket.Proofs.Intake
import AWEnginePacket.Proofs.Lifetime

namespace AWEnginePacket

open Endian (ByteOrder)

-- ============================================================ by the user

/-- Nothing has been read or written on a connection, and nothing that it
does itself has closed it. -/
structure Untouched (c c' : Connection) : Prop where
  incoming : c'.incoming = c.incoming
  messages : c'.mMessagesIn = c.mMessagesIn
  handed : c'.handed = c.handed
  isOpen : c'.isOpen = c.isOpen

namespace Untouched

variable {c c' c'' : Connection}

theorem refl (c : Connection) : Untouched c c := ⟨rfl, rfl, rfl, rfl⟩

theorem trans (h : Untouched c c') (h' : Untouched c' c'') :
    Untouched c c'' :=
  ⟨h'.incoming.trans h.incoming, h'.messages.trans h.messages,
    h'.handed.trans h.handed, h'.isOpen.trans h.isOpen⟩

/-- A `Send`, up to its post. -/
theorem of_sendBegin {host : ByteOrder} {ids : PacketIDs} {packet : IPacket}
    (h : (Connection.sendBegin host ids packet).run c = .ok ⟨⟩ c') :
    Untouched c c' := by
  obtain ⟨call, c₁, hprepare, hkeep⟩ := Effect.of_run_bind_ok h
  obtain ⟨-, -, -, rfl⟩ := Connection.of_prepare_ok host ids hprepare
  cases hkeep
  unfold Connection.remembered
  split
  · exact ⟨rfl, rfl, rfl, rfl⟩
  · exact ⟨rfl, rfl, rfl, rfl⟩

/-- The post. -/
theorem of_sendEnd {host : ByteOrder} {ids : PacketIDs} {i : Nat}
    (h : Connection.step host ids (.sendEnd i) c = some c') :
    Untouched c c' := by
  obtain ⟨call, -, rfl⟩ := Connection.of_step_sendEnd h
  exact ⟨rfl, rfl, rfl, rfl⟩

end Untouched

namespace Service

variable {host : ByteOrder} {ids : PacketIDs} {s s' s'' : Service}
  {a : Action}

/-- Nobody has been let in, nothing has come in or gone out, and the
queue has at most got shorter. -/
structure Unserved (s s' : Service) : Prop where
  created : s'.created = s.created
  queue : s'.mMessageInQueue <:+ s.mMessageInQueue
  connection : ∀ k, Untouched (s.connection k) (s'.connection k)

theorem Unserved.refl (s : Service) : Unserved s s :=
  ⟨rfl, List.suffix_rfl, fun _ => .refl _⟩

theorem Unserved.trans (h : Unserved s s') (h' : Unserved s' s'') :
    Unserved s s'' :=
  ⟨h'.created.trans h.created, h'.queue.trans h.queue,
    fun k => (h.connection k).trans (h'.connection k)⟩

/-- The user's thread has a `Send` under way. -/
theorem Unserved.setConnection {k : Nat} {c : Connection} {task : Task}
    (h : Untouched (s.connection k) c) :
    Unserved s { s.setConnection k c with task } := by
  refine ⟨rfl, List.suffix_rfl, fun j => ?_⟩
  show Untouched (s.connection j) (Function.update s.connection k c j)
  by_cases hj : j = k
  · subst hj
    rwa [Function.update_self]
  · rw [Function.update_of_ne hj]
    exact .refl _

/-- What the user's thread does without the io thread. -/
theorem unserved_move (hby : Lifetime.byUser a = true)
    (hmove : Move host ids s a s') : Unserved s s' := by
  cases hmove with
  | approves | denies | handles => cases hby
  | pops hqueue =>
      refine ⟨rfl, ?_, fun k => .refl _⟩
      rw [hqueue]
      exact List.suffix_cons ..
  | sends ht hsends hrun => exact .setConnection (.of_sendBegin hrun)
  | posts ht hstep => exact .setConnection (.of_sendEnd hstep)
  | _ => exact ⟨rfl, List.suffix_rfl, fun k => .refl _⟩

end Service

namespace Lifetime

open Service (Unserved)

variable {host : ByteOrder} {ids : PacketIDs} {l l' : Lifetime} {a : Action}
  {acts onward : List Action}

-- =============================================================== final

/-- A stopped context runs no handler. -/
theorem unserved_move (hstopped : l.mIoContextStopped = true)
    (hmove : Move host ids l a l') :
    l'.mIoContextStopped = true ∧ Unserved l.service l'.service := by
  have hnot : l.canHandle ≠ true := by
    intro hcan
    have hopen := (canHandle_iff.mp hcan).2.1
    rw [hstopped] at hopen
    cases hopen
  cases hmove with
  | accepts hcan | handles hcan => exact absurd hcan hnot
  | stops hfree => exact ⟨rfl, .refl _⟩
  | ends hthread hheld hend => exact ⟨rfl, .refl _⟩
  | uses huser hby hstep =>
      exact ⟨hstopped, Service.unserved_move hby (Service.move_of_step hstep)⟩
  | _ => exact ⟨hstopped, .refl _⟩

/-- A `Start()` by what has been called so far. -/
theorem Standing.start_iff (h : Standing acts l) (threadStarts : Bool) :
    (∃ l', (start threadStarts).run l = .ok true l')
      ↔ threadStarts = true ∧ begun acts = false := by
  rw [← h.thread]
  cases threadStarts with
  | false => simp [start_refused]
  | true =>
      cases hthread : l.mThreadContext.joinable with
      | false => simp [start_begins hthread]
      | true => simp [start_joinable hthread]

/-- After a `Stop()` nobody is let in, nothing is read or written and no
handler closes a connection, whatever is called; and a `Start()` returns
true as it does before one. -/
theorem stopped_for_good
    (hrun : Lts.run (step host ids) {} acts = some l)
    (hstop : stopped acts = true)
    (hon : Lts.run (step host ids) l onward = some l') :
    Unserved l.service l'.service
      ∧ ∀ threadStarts, (∃ l'', (start threadStarts).run l' = .ok true l'')
        ↔ threadStarts = true ∧ begun (acts ++ onward) = false := by
  refine ⟨?_, (standing_run (Lts.run_append hrun hon)).start_iff⟩
  have hcontext : l.mIoContextStopped = true := by
    rw [(standing_run hrun).context, hstop]
  refine (Lts.run_invariant (fun m => m.mIoContextStopped = true
    ∧ Unserved l.service m.service) ?_ ⟨hcontext, .refl _⟩ hon).2
  rintro m a m' ⟨hstopped, hsofar⟩ hs
  obtain ⟨hstopped', hstep⟩ := unserved_move hstopped (move_of_step hs)
  exact ⟨hstopped', hsofar.trans hstep⟩

/-- A server that is stopped and started again, and then sends to the
client it has: the handler of that `Send` stays where it was posted. -/
theorem stopped_for_good_restarted :
    ∃ l l', Lts.run (step .little ⟨0xF0, 0xF1⟩) {}
        (opening ++ [.stop false, .runReturns, .join]) = some l
      ∧ Lts.run (step .little ⟨0xF0, 0xF1⟩) l
        [.start true, .serve (.sendAllClients ⟨1, pure ⟨⟩⟩ none),
          .serve .next, .serve .send, .serve .post, .runReturns] = some l'
      ∧ (l'.service.connection 0).posted.length = 1
      ∧ Unserved l.service l'.service := by
  refine ⟨_, _, rfl, rfl, rfl, ?_⟩
  exact (@stopped_for_good .little ⟨0xF0, 0xF1⟩ _ _
    (opening ++ [.stop false, .runReturns, .join])
    [.start true, .serve (.sendAllClients ⟨1, pure ⟨⟩⟩ none),
      .serve .next, .serve .send, .serve .post, .runReturns]
    rfl rfl rfl).1

-- ============================================================== returning

/-- The user's thread waits for the io thread. -/
structure Joining (l : Lifetime) : Prop where
  user : ∃ destroying, l.user = .stopping destroying
  stopped : l.mIoContextStopped = true
  handling : l.handling = true → l.mThreadContext = .running
  lives : l.fate = none ∧ l.service.terminated = false

/-- What the io thread still has to do. -/
def toDo (l : Lifetime) : Nat :=
  l.handling.toNat + if l.mThreadContext = .running then 1 else 0

theorem toDo_le (l : Lifetime) : l.toDo ≤ 2 := by
  have h := Bool.toNat_le l.handling
  unfold toDo
  split <;> omega

theorem Joining.move (h : Joining l) (hjoin : a ≠ .join)
    (hmove : Move host ids l a l') : Joining l' ∧ l'.toDo < l.toDo := by
  obtain ⟨⟨destroying, huser⟩, hstopped, hhandling, hlives⟩ := h
  have hbusy : l.isFree ≠ true := by simp [isFree, huser]
  have hnot : l.canHandle ≠ true := by
    intro hcan
    have hopen := (canHandle_iff.mp hcan).2.1
    rw [hstopped] at hopen
    cases hopen
  cases hmove with
  | refuses hfree | begins hfree | collides hfree | stops hfree =>
      exact absurd hfree hbusy
  | joins | destroys => exact absurd rfl hjoin
  | accepts hcan | fails hcan | handles hcan | dangles hcan =>
      exact absurd hcan hnot
  | uses hfree =>
      rw [huser] at hfree
      cases hfree
  | waits hheld =>
      refine ⟨⟨⟨destroying, huser⟩, hstopped, fun h => ?_, hlives⟩, ?_⟩
      · cases h
      · simp [toDo, hheld]
  | ends hthread hheld hend =>
      refine ⟨⟨⟨destroying, huser⟩, rfl, fun h => ?_, hlives⟩, ?_⟩
      · rw [hheld] at h
        cases h
      · simp [toDo, hthread]

/-- Either the io thread can go on or it can be joined. -/
theorem Joining.goes_on (h : Joining l) :
    ∃ a, (step host ids a l).isSome = true := by
  obtain ⟨⟨destroying, huser⟩, hstopped, hhandling, hfate, hterm⟩ := h
  have hstep (a : Action) : step host ids a l = event host ids a l := by
    simp [step, hfate, hterm]
  by_cases hthread : l.mThreadContext = .running
  · cases hheld : l.handling with
    | true =>
        refine ⟨.waitForClientConnection, ?_⟩
        simp [hstep, event, hheld]
    | false =>
        refine ⟨.runReturns, ?_⟩
        simp [hstep, event, hthread, hheld, hstopped]
  · refine ⟨.join, ?_⟩
    simp [hstep, event, huser, hthread]

theorem joining_run (hrun : Lts.run (step host ids) {} acts = some l)
    {destroying : Bool} (huser : l.user = .stopping destroying) :
    Joining l := by
  have hall : Standing acts l
      ∧ ∀ destroying, l.user = .stopping destroying → Joining l := by
    refine Lts.run_history (fun acts l => Standing acts l
      ∧ ∀ destroying, l.user = .stopping destroying → Joining l)
      ?_ ⟨standing_start, fun _ huser => ?_⟩ hrun
    case refine_2 => cases huser
    rintro acts l a l' ⟨h, hjoining⟩ hs
    have hmove := move_of_step hs
    refine ⟨standing_move h hmove, fun destroying huser' => ?_⟩
    cases huser : l.user with
    | stopping destroying' =>
        refine ((hjoining _ huser).move ?_ hmove).1
        rintro rfl
        cases hmove with
        | joins | destroys => cases huser'
    | free =>
        cases hmove with
        | stops hfree =>
            obtain ⟨hfate, hterm, -⟩ := of_step hs
            exact ⟨⟨_, rfl⟩, rfl, h.handling, hfate, hterm⟩
        | _ => simp [huser] at huser'
  exact hall.2 destroying huser

/-- `Stop()` returns, and so does the destructor's: from whatever moment
it is called at, the io thread takes at most two steps before it is
joined, and there is always a step to take. -/
theorem stop_returns {destroying : Bool}
    (hrun : Lts.run (step host ids) {} acts = some l)
    (huser : l.user = .stopping destroying)
    (hon : Lts.run (step host ids) l onward = some l')
    (hjoin : Action.join ∉ onward) :
    onward.length ≤ 2 ∧ ∃ a, (step host ids a l').isSome = true := by
  obtain ⟨hjoining, hle⟩ := @Potential.length_le _ _ (step host ids)
    (fun a => a ≠ .join) Joining toDo
    (fun l a l' h ha hs => h.move ha (move_of_step hs)) l l' onward
    (joining_run hrun huser) (fun a ha heq => hjoin (heq ▸ ha)) hon
  have htwo := toDo_le l
  exact ⟨by omega, hjoining.goes_on⟩

/-- A `Stop()` while the io thread is in the handler of an accept. -/
theorem stop_returns_handling :
    ∃ l l', Lts.run (step .little ⟨0xF0, 0xF1⟩) {}
        [.start true, .acceptFailed, .stop false] = some l
      ∧ Lts.run (step .little ⟨0xF0, 0xF1⟩) l
        [.waitForClientConnection, .runReturns] = some l'
      ∧ ∃ a, (step .little ⟨0xF0, 0xF1⟩ a l').isSome = true := by
  refine ⟨_, _, rfl, rfl, ?_⟩
  refine (@stop_returns .little ⟨0xF0, 0xF1⟩ _ _
    [.start true, .acceptFailed, .stop false]
    [.waitForClientConnection, .runReturns] false rfl rfl rfl ?_).2
  simp

end Lifetime

-- ============================================================ who is left

namespace Service

open Effect

variable {host : ByteOrder} {ids : PacketIDs} {s s' : Service} {a : Action}
  {k : Nat}

/-- A connection that has lived pushes messages of its own. -/
theorem Lived.pushes_own (h : Lived host ids s k) {b : Connection.Action}
    {c : Connection}
    (hstep : Connection.step host ids b (s.connection k) = some c) :
    ∀ m ∈ c.mMessagesIn.drop (s.connection k).mMessagesIn.length,
      m.first = some k := by
  obtain ⟨incoming, now, acts, hrun⟩ := h.lives
  obtain ⟨fs, rest, hreader⟩ := Connection.reader_run
    (Connection.listening_started k incoming now) hrun
  have hself : (s.connection k).self = k :=
    Lts.run_invariant (fun c => c.self = k)
      (fun c a c' hc hs => (Connection.self_step hs).trans hc) rfl hrun
  obtain ⟨new, hnew, hown⟩ := Connection.pushes_own hreader hstep
  intro m hm
  rw [hnew, List.drop_left] at hm
  have hdir : (s.connection k).mDirection = .toClient := hreader.direction
  rw [hown m hm, Connection.owner, hdir, if_pos rfl, hself]

/-- A null entry is reported as one. -/
theorem seen_drop_null {i : Nat} (hi : s.mConnections[i]? = some none) :
    (drop i none s).seen = s.seen ++ [none] := by
  obtain ⟨hlt, heq⟩ := List.getElem?_eq_some_iff.mp hi
  have hset : s.mConnections.set i none = s.mConnections := by
    rw [← heq, List.set_getElem_self]
  rw [seen, seen, drop, hset, List.append_assoc]

/-- A reset makes nobody known, and forgets nobody. -/
theorem mem_seen_drop {i : Nat} {p : Option Nat}
    (hi : s.mConnections[i]? = some p) :
    some k ∈ (drop i p s).seen ↔ some k ∈ s.seen := by
  cases p with
  | some j => exact (seen_drop hi).mem_iff
  | none => simp [seen_drop_null hi]

variable (host ids) in
/-- The connections that have been let in have lived, and the messages in
the queue are theirs. -/
structure Known (s : Service) : Prop where
  lived : ∀ k, some k ∈ s.seen → Lived host ids s k
  queued : ∀ m ∈ s.mMessageInQueue, ∃ k, m.first = some k ∧ some k ∈ s.seen

/-- Whoever has an owner has been let in. -/
theorem Known.seen_of_owns (h : Known host ids s) (howns : s.owns k = true) :
    some k ∈ s.seen := by
  rcases (owns_iff s k).mp howns with hk | ⟨m, hm, hfirst⟩
  · exact List.mem_append_left _ (List.mem_filter.mpr ⟨hk, rfl⟩)
  · obtain ⟨j, hj, hseen⟩ := h.queued m hm
    rw [hfirst] at hj
    cases hj
    exact hseen

/-- Nobody is let in, and the connections are left alone. -/
theorem Known.of_eq (h : Known host ids s)
    (hseen : ∀ k, some k ∈ s'.seen ↔ some k ∈ s.seen)
    (hmade : s.created ≤ s'.created)
    (hconn : s'.connection = s.connection)
    (hterm : s'.terminated = s.terminated)
    (hqueue : s'.mMessageInQueue ⊆ s.mMessageInQueue) :
    Known host ids s' := by
  refine ⟨fun k hk => ?_, fun m hm => ?_⟩
  · exact (h.lived k ((hseen k).mp hk)).of_eq hmade (by rw [hconn]) hterm
  · obtain ⟨k, hfirst, hk⟩ := h.queued m (hqueue hm)
    exact ⟨k, hfirst, (hseen k).mpr hk⟩

/-- An event of one connection, which may push messages of its own. -/
theorem Known.event (h : Known host ids s) (hlives : s.terminated = false)
    {b : Connection.Action} {c : Connection} {new : List OwnedMessage}
    (hstep : some k ∈ s.seen →
      Connection.step host ids b (s.connection k) = some c)
    (hseen : s'.seen = s.seen) (hmade : s'.created = s.created)
    (hconn : s'.connection = Function.update s.connection k c)
    (hterm : some k ∈ s.seen → s'.terminated = false → c.escaped = none)
    (hqueue : s'.mMessageInQueue = s.mMessageInQueue ++ new)
    (hown : ∀ m ∈ new, m.first = some k ∧ some k ∈ s.seen) :
    Known host ids s' := by
  refine ⟨fun j hj => ?_, fun m hm => ?_⟩
  · rw [hseen] at hj
    by_cases hjk : j = k
    · subst hjk
      exact (h.lived j hj).event hlives (fun _ => hstep hj) hmade hconn
        (hterm hj)
    · obtain ⟨hold, hlived, hintact⟩ := h.lived j hj
      have hsame : s'.connection j = s.connection j := by
        rw [hconn, Function.update_of_ne hjk]
      exact ⟨by rw [hmade]; exact hold, by rw [hsame]; exact hlived,
        fun _ => by rw [hsame]; exact hintact hlives⟩
  · rw [hqueue] at hm
    rw [hseen]
    rcases List.mem_append.mp hm with hm | hm
    · exact h.queued m hm
    · exact ⟨k, hown m hm⟩

/-- Somebody new, let in or not. -/
theorem Known.accept (h : Known host ids s) (approved : Bool)
    (incoming : List UInt8) (now : TimePoint) :
    Known host ids (accept approved incoming now s) := by
  have hold (k : Nat) (hk : some k ∈ s.seen) :
      Lived host ids (Service.accept approved incoming now s) k := by
    have hlived := h.lived k hk
    have hne : k ≠ s.created := Nat.ne_of_lt hlived.made
    cases approved with
    | true =>
        refine hlived.of_eq (Nat.le_succ _) ?_ rfl
        exact Function.update_of_ne hne _ _
    | false =>
        refine hlived.of_eq (Nat.le_succ _) ?_ rfl
        exact Function.update_of_ne hne _ _
  cases approved with
  | false => exact ⟨hold, h.queued⟩
  | true =>
      have hseen (k : Nat) :
          some k ∈ (Service.accept true incoming now s).seen
            ↔ k = s.created ∨ some k ∈ s.seen := by
        rw [(seen_approved incoming now s).mem_iff, List.mem_cons,
          Option.some.injEq]
      refine ⟨fun k hk => ?_, fun m hm => ?_⟩
      · rcases (hseen k).mp hk with rfl | hk
        · have hconn : (Service.accept true incoming now s).connection
              s.created = Connection.started s.created incoming now :=
            Function.update_self ..
          refine ⟨Nat.lt_succ_self _, ⟨incoming, now, ?_⟩, fun _ => ?_⟩
          · rw [hconn]
            exact .refl _
          · rw [hconn]
            rfl
        · exact hold k hk
      · obtain ⟨k, hfirst, hk⟩ := h.queued m hm
        exact ⟨k, hfirst, (hseen k).mpr (.inr hk)⟩

theorem known_move (h : Known host ids s) (hlives : s.terminated = false)
    (hmove : Move host ids s a s') : Known host ids s' := by
  cases hmove with
  | approves hidle => exact h.accept true _ _
  | denies hidle => exact h.accept false _ _
  | @handles k b c howns hstep =>
      have hk := h.seen_of_owns howns
      refine h.event hlives (fun _ => hstep) rfl rfl rfl (fun _ hterm => ?_)
        rfl fun m hm => ⟨(h.lived k hk).pushes_own hstep m hm, hk⟩
      simpa [handled] using hterm
  | pops hqueue =>
      refine h.of_eq (fun _ => Iff.rfl) (Nat.le_refl _) rfl rfl ?_
      rw [hqueue]
      exact List.subset_cons_self ..
  | ends ht hi =>
      refine h.of_eq (fun k => ?_) (Nat.le_refl _) rfl rfl
        (List.Subset.refl _)
      simp only [seen, filter_erased]
  | drops ht hi hv =>
      exact h.of_eq (fun k => mem_seen_drop hi) (Nat.le_refl _) rfl rfl
        (List.Subset.refl _)
  | @sends packet ignoredClient i k b c ht hsends hrun =>
      refine h.event (b := .sendBegin packet) hlives (fun hk => ?_) rfl rfl
        rfl (fun hk _ => ?_) (List.append_nil _).symm
        fun m hm => absurd hm List.not_mem_nil
      · exact Connection.step_sendBegin ((h.lived k hk).intact hlives) hrun
      · have hkept := (Connection.sendBegin_keeps_reading packet).of_ok hrun
        exact hkept.2.2.trans ((h.lived k hk).intact hlives)
  | @posts packet ignoredClient i k b c ht hstep =>
      refine h.event hlives (fun _ => hstep) rfl rfl rfl
        (fun _ _ => ?_) (List.append_nil _).symm
        fun m hm => absurd hm List.not_mem_nil
      obtain ⟨call, -, rfl⟩ := Connection.of_step_sendEnd hstep
      exact (Connection.of_step hstep).1
  | _ => exact ⟨fun k hk => (h.lived k hk).of_eq (Nat.le_refl _) rfl rfl,
      h.queued⟩

-- ================================================================ counting

/-- A client is let in. -/
def Action.isApproval : Action → Bool
  | .accept approved _ _ => approved
  | _ => false

/-- How many connections are in the container or have been reported. -/
def known (s : Service) : Nat := s.seen.countP (·.isSome)

/-- The count goes up by one when a client is let in, and never down. -/
theorem count_move (hmove : Move host ids s a s') :
    s'.known = s.known + a.isApproval.toNat := by
  cases hmove with
  | @approves incoming now hidle =>
      rw [known, (seen_approved incoming now s).countP_eq]
      simp [known, Action.isApproval]
  | @ends loop i b ht hi => simp [known, seen, filter_erased, Action.isApproval]
  | @drops loop i b p ht hi hv =>
      show (drop i p s).seen.countP _ = _
      cases p with
      | some k =>
          rw [(seen_drop hi).countP_eq]
          rfl
      | none => simp [seen_drop_null hi, known, Action.isApproval]
  | _ => rfl

theorem known_start : Known host ids start := by
  refine ⟨fun k hk => ?_, fun m hm => ?_⟩
  · exact absurd hk List.not_mem_nil
  · exact absurd hm List.not_mem_nil

/-- Who is left after a run: nobody, where everybody has been reported
and all messages have been taken. -/
theorem nobody_left {acts : List Action}
    (hrun : Lts.run (step host ids) start acts = some s) :
    Lifetime.ownsSockets s = false
      ↔ s.disconnected.countP (·.isSome) = acts.countP Action.isApproval
        ∧ s.mMessageInQueue = [] := by
  have hknown : Known host ids s := Lts.run_invariant (Known host ids)
    (fun s a s' h hs => known_move h (lives_of_step hs) (move_of_step hs))
    known_start hrun
  have hcount : s.known = acts.countP Action.isApproval := by
    refine Lts.run_history
      (fun acts s => s.known = acts.countP Action.isApproval) ?_ rfl hrun
    intro acts s a s' hsofar hs
    rw [count_move (move_of_step hs), hsofar, List.countP_append]
    cases ha : a.isApproval <;> simp [ha]
  have hsplit : s.known = s.mConnections.countP (·.isSome)
      + s.disconnected.countP (·.isSome) := by
    simp [known, seen, List.countP_filter]
  have hqueue : s.mMessageInQueue.any (·.first.isSome) = false
      ↔ s.mMessageInQueue = [] := by
    constructor
    · intro hnone
      rw [List.any_eq_false] at hnone
      refine List.eq_nil_iff_forall_not_mem.mpr fun m hm => ?_
      obtain ⟨k, hfirst, -⟩ := hknown.queued m hm
      exact hnone m hm (by rw [hfirst]; rfl)
    · intro hnil
      rw [hnil]
      rfl
  have hcontainer : s.mConnections.any (·.isSome) = false
      ↔ s.mConnections.countP (·.isSome) = 0 := by
    rw [List.any_eq_false, List.countP_eq_zero]
  rw [Lifetime.ownsSockets, Bool.or_eq_false_iff, hqueue, hcontainer,
    ← hcount, hsplit]
  constructor
  · rintro ⟨hzero, hnil⟩
    exact ⟨by omega, hnil⟩
  · rintro ⟨hall, hnil⟩
    exact ⟨by omega, hnil⟩

end Service

namespace Lifetime

variable {host : ByteOrder} {ids : PacketIDs} {l l' : Lifetime}
  {acts : List Action}

-- ========================================================= the destructor

/-- How many clients have been let in. -/
def approvals (acts : List Action) : Nat :=
  (acts.filterMap Action.served?).countP Service.Action.isApproval

/-- The destructor comes to its end with the thread joined. No socket
outlives its `io_context` exactly where `OnClientDisconnect` has been
called for every client that was let in and every message received has
been taken. -/
theorem destroyed_iff (hrun : Lts.run (step host ids) {} acts = some l)
    (huser : l.user = .stopping true)
    (hs : step host ids .join l = some l') :
    l'.mThreadContext = .none
      ∧ (l'.fate = some .destroyed ∨ l'.fate = some .outlivedContext)
      ∧ (l'.fate = some .destroyed
        ↔ l.service.disconnected.countP (·.isSome) = approvals acts
          ∧ l.service.mMessageInQueue = []) := by
  have hleft := Service.nobody_left (service_run hrun)
  cases move_of_step hs with
  | joins huser' =>
      rw [huser] at huser'
      cases huser'
  | destroys _ hthread =>
      rw [approvals, ← hleft]
      cases howns : ownsSockets l.service with
      | false => simp [lastFate, howns]
      | true => simp [lastFate, howns]

/-- A server with a client is destroyed. -/
theorem destroyed_iff_opening :
    ∃ l l', Lts.run (step .little ⟨0xF0, 0xF1⟩) {}
        (opening ++ [.stop true, .runReturns]) = some l
      ∧ step .little ⟨0xF0, 0xF1⟩ .join l = some l'
      ∧ l'.fate = some .outlivedContext
      ∧ (l'.fate = some .destroyed
        ↔ l.service.disconnected.countP (·.isSome)
            = approvals (opening ++ [.stop true, .runReturns])
          ∧ l.service.mMessageInQueue = []) := by
  refine ⟨_, _, rfl, rfl, rfl, ?_⟩
  exact (@destroyed_iff .little ⟨0xF0, 0xF1⟩ _ _
    (opening ++ [.stop true, .runReturns]) rfl rfl rfl).2.2

end Lifetime

end AWEnginePacket
