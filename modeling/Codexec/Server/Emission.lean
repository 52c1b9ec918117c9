/-
**The order of the states that a stream emits.**

While a submission is in its one attempt, its row only goes forward, and the one worker that has it
publishes the rows it reads one after the other; a state that is read and not yet published is still
that of the row, unless the row is DONE (`Step.pending_kept`). So what waits in a receive buffer is
in order and not ahead of the row. A stream puts the row it reads before what waits already: it goes
back when the row has moved on since then (`goes_back_of_stale`), and in no other case.
-/

import Codexec.Server.Broadcast
import Codexec.Server.Fifo
import Codexec.Server.Monotone

namespace Codexec.Server

open Codexec Codexec.Library Machine

/-! ### How far a state is -/

/-- QUEUED, COMPILING, RUNNING, DONE. -/
def Status.order : Status → Nat
  | .queued => 0
  | .compiling => 1
  | .running => 2
  | .done => 3

/-- The status of a state, and its tests within that status. -/
def Submission.standing (sub : Submission) : Nat ×ₗ Nat := toLex (sub.status.order, sub.testsDone)

def Row.standing (row : Row) : Nat ×ₗ Nat := row.toSubmission.standing

theorem Row.standing_le {row next : Row} (order : row.status.order ≤ next.status.order)
    (testsDone : row.testsDone ≤ next.testsDone) : row.standing ≤ next.standing := by
  show toLex (row.status.order, row.testsDone) ≤ toLex (next.status.order, next.testsDone)
  rw [Prod.Lex.toLex_le_toLex]
  rcases Nat.lt_or_eq_of_le order with less | same
  · exact .inl less
  · exact .inr ⟨same, testsDone⟩

theorem Row.standing_lt {row next : Row} (order : row.status.order < next.status.order) :
    row.standing ≤ next.standing := by
  show toLex (row.status.order, row.testsDone) ≤ toLex (next.status.order, next.testsDone)
  rw [Prod.Lex.toLex_le_toLex]
  exact .inl order

/-- **In a single attempt every token is that of the row.** -/
theorem attempt_of_single {state : Queue} {row : Row} (fenced : state.Fenced) {token : Token}
    (issued : token ∈ state.issued) (found : state.store.submissions.get token.id = some row)
    (most : row.attempt ≤ 1) : row.attempt = 1 ∧ token.attempt.toNat = 1 := by
  have some := attempt_ne_zero_of_issued fenced issued found
  have one : row.attempt = 1 := by omega
  refine ⟨one, ?_⟩
  have inside : token ∈ state.tokens token.id :=
    List.mem_filter.mpr ⟨issued, decide_eq_true rfl⟩
  have counted : token.attempt ∈ (state.tokens token.id).map Token.attempt :=
    List.mem_map_of_mem inside
  rw [fenced token.id, Store.attempts_of_get found, one] at counted
  rw [List.mem_singleton.mp counted]
  rfl

theorem Beat.pending_afterFetch {reply : Except StoreError (Option Submission)} {sub : Submission}
    (has : (System.afterFetch reply).pending = some sub) : reply = .ok (some sub) := by
  unfold System.afterFetch at has
  split at has
  · cases has
    rfl
  · cases has

/-! ### Streams that go forward -/

/-- What was emitted, and the state to emit first. -/
def Stream.shown (self : Stream) : List Submission := self.emitted ++ self.phase.first.toList

/-- What a stream shows is in order and so is what waits, which comes next unless DONE is shown. -/
structure Stream.Rising (stream : Stream) (allowed : Nat ×ₗ Nat → Prop) : Prop where
  shown : stream.shown.Pairwise fun earlier later => earlier.standing ≤ later.standing
  waiting : stream.waiting.Pairwise fun earlier later => earlier.standing ≤ later.standing
  next : stream.live = true → (∀ sub ∈ stream.shown, sub.status ≠ .done) →
    ∀ earlier ∈ stream.shown, ∀ later ∈ stream.waiting, earlier.standing ≤ later.standing
  shownAllowed : ∀ sub ∈ stream.shown, sub.status ≠ .done → allowed sub.standing
  waitingAllowed : ∀ sub ∈ stream.waiting, allowed sub.standing

namespace Stream.Rising

variable {self : Stream} {allowed allowed' : Nat ×ₗ Nat → Prop}

theorem mono (rising : self.Rising allowed)
    (keeps : ∀ standing, allowed standing → allowed' standing) : self.Rising allowed' :=
  ⟨rising.shown, rising.waiting, rising.next,
    fun sub inside live => keeps _ (rising.shownAllowed sub inside live),
    fun sub inside => keeps _ (rising.waitingAllowed sub inside)⟩

/-- A stream that has not started. -/
theorem start (fresh : self.shown = []) (empty : self.waiting = []) : self.Rising allowed := by
  refine ⟨?_, ?_, ?_, ?_, ?_⟩ <;> simp [fresh, empty]

/-- **A state that is not behind anything** arrives. -/
theorem receive (rising : self.Rising allowed) {sub : Submission}
    (above : ∀ standing, allowed standing → standing ≤ sub.standing) (new : allowed sub.standing) :
    (self.receive sub).Rising allowed := by
  have inside {other : Submission} (member : other ∈ (self.receive sub).waiting) :
      other ∈ self.waiting ∨ other = sub := by
    have old := List.mem_of_mem_drop member
    rwa [List.mem_append, List.mem_singleton] at old
  refine ⟨rising.shown, ?_, ?_, rising.shownAllowed, ?_⟩
  · have all : (self.waiting ++ [sub]).Pairwise
        fun earlier later => earlier.standing ≤ later.standing := by
      rw [List.pairwise_append]
      refine ⟨rising.waiting, List.pairwise_singleton _ _, fun earlier old later last => ?_⟩
      rw [List.mem_singleton.mp last]
      exact above _ (rising.waitingAllowed earlier old)
    exact all.sublist (List.drop_sublist _ _)
  · intro live going earlier here later there
    rcases inside there with old | rfl
    · exact rising.next live going earlier here later old
    · exact above _ (rising.shownAllowed earlier here (going earlier here))
  · intro other member
    rcases inside member with old | rfl
    · exact rising.waitingAllowed other old
    · exact new

/-- **The row that is read** comes before what waits. -/
theorem opened (rising : self.Rising allowed) (fresh : self.emitted = []) {current : Submission}
    (ordered : current.status = .done ∨ ∀ sub ∈ self.waiting, current.standing ≤ sub.standing)
    (new : current.status ≠ .done → allowed current.standing) :
    (self.opened (.ok (some current))).Rising allowed := by
  have shown : (self.opened (.ok (some current))).shown = [current] := by
    show self.emitted ++ [current] = [current]
    rw [fresh, List.nil_append]
  refine ⟨?_, rising.waiting, ?_, ?_, rising.waitingAllowed⟩
  · rw [shown]
    exact List.pairwise_singleton _ _
  · rw [shown]
    intro _ going earlier here later there
    rw [List.mem_singleton.mp here]
    exact ordered.resolve_left (going current (List.mem_singleton_self _)) later there
  · rw [shown]
    intro sub here live
    rw [List.mem_singleton] at here
    subst here
    exact new live

/-- A stream that ends shows what it has emitted. -/
theorem close (rising : self.Rising allowed) :
    ({ self with phase := .closed } : Stream).Rising allowed := by
  have part : ({ self with phase := .closed } : Stream).shown.Sublist self.shown := by
    show (self.emitted ++ []).Sublist _
    rw [List.append_nil]
    exact List.sublist_append_left _ _
  refine ⟨rising.shown.sublist part, rising.waiting, ?_, ?_, rising.waitingAllowed⟩
  · intro live
    cases live
  · exact fun sub inside => rising.shownAllowed sub (part.subset inside)

/-- **A poll keeps the order.** -/
theorem poll (rising : self.Rising allowed) {read : Submission → Prop}
    (stage : Stage read self.phase self.emitted) {connected : Bool}
    (joined : self.live = true → connected = true) : (self.poll connected).Rising allowed := by
  rcases poll_cases stage joined with
    same | ⟨row, phase, same⟩ | ⟨sub, rest, phase, waits, same⟩ | ⟨phase, same⟩
  · rwa [same]
  · -- The state to emit first is emitted.
    have shown : (self.emit row).shown = self.shown := by
      show self.emitted ++ [row] ++ [] = self.emitted ++ self.phase.first.toList
      rw [phase, List.append_nil]
      rfl
    rw [same]
    refine ⟨by rw [shown]; exact rising.shown, rising.waiting, fun _ => ?_, ?_,
      rising.waitingAllowed⟩
    · rw [shown]
      exact rising.next (Stream.Open.live ⟨_, _, phase⟩)
    · rw [shown]
      exact rising.shownAllowed
  · -- The oldest state of the buffer is emitted.
    rw [phase] at stage
    have going := stage.of_going.2
    have before : self.shown = self.emitted := by
      show self.emitted ++ self.phase.first.toList = self.emitted
      rw [phase]
      exact List.append_nil _
    have shown : (({ self with waiting := rest } : Stream).emit sub).shown =
        self.shown ++ [sub] := by
      show self.emitted ++ [sub] ++ [] = self.shown ++ [sub]
      rw [before, List.append_nil]
    have next := rising.next (Stream.Open.live ⟨_, _, phase⟩) (by rwa [before])
    have waiting := rising.waiting
    have allowed := rising.waitingAllowed
    rw [waits] at next waiting allowed
    obtain ⟨first, later⟩ := List.pairwise_cons.mp waiting
    rw [same]
    refine ⟨?_, later, fun _ _ => ?_, ?_, ?_⟩
    · rw [shown, List.pairwise_append]
      refine ⟨rising.shown, List.pairwise_singleton _ _, fun earlier here last final => ?_⟩
      rw [List.mem_singleton.mp final]
      exact next earlier here sub List.mem_cons_self
    · rw [shown]
      intro earlier here other there
      rcases List.mem_append.mp here with old | new
      · exact next earlier old other (List.mem_cons_of_mem _ there)
      · rw [List.mem_singleton.mp new]
        exact first other there
    · rw [shown]
      intro other here live
      rcases List.mem_append.mp here with old | new
      · exact rising.shownAllowed other old live
      · rw [List.mem_singleton.mp new]
        exact allowed sub List.mem_cons_self
    · exact fun other there => allowed other (List.mem_cons_of_mem _ there)
  · rw [same]
    exact rising.close

end Stream.Rising

section Server

variable [Host]

/-- The submission was claimed at most once, and has not come back to the queue. -/
def SingleAttempt (s : System) (id : String) : Prop :=
  ∀ row, s.queue.store.submissions.get id = some row →
    row.attempt ≤ 1 ∧ (row.status = .queued → row.attempt = 0)

theorem SingleAttempt.of_all {s : System} {id : String}
    (all : (s.queue.store.submissions.get id).all (fun row => decide (row.attempt ≤ 1) &&
      (decide (row.status ≠ .queued) || decide (row.attempt = 0))) = true) :
    SingleAttempt s id := by
  intro row found
  rw [found, Option.all_some, Bool.and_eq_true, Bool.or_eq_true] at all
  refine ⟨of_decide_eq_true all.1, fun queued => ?_⟩
  rcases all.2 with left | never
  · exact absurd queued (of_decide_eq_true left)
  · exact of_decide_eq_true never

/-- Once claimed, it is not queued. -/
theorem SingleAttempt.claimed {s : System} {id : String} (single : SingleAttempt s id) {row : Row}
    (found : s.queue.store.submissions.get id = some row) (claimed : row.attempt ≠ 0) :
    row.status ≠ .queued :=
  fun back => claimed ((single row found).2 back)

/-! ### The row of a single attempt -/

section Steps

variable {s after : System} {event : Event} {steps : List (Transition System Event)} {id : String}
  {row next : Row}

theorem unclaimed_of_run (run : system.Run steps s) : Unclaimed s.queue :=
  ((unclaimed_invariant.guarded byWorkers).of_reachable
    (system_refines.reachable sound_invariant ⟨_, run⟩)).2

/-- **In a single attempt a row only goes forward.** -/
theorem Step.standing (run : system.Run steps s) (step : Step s event after)
    (single : SingleAttempt s id) (single' : SingleAttempt after id)
    (found : s.queue.store.submissions.get id = some row)
    (found' : after.queue.store.submissions.get id = some next) :
    row.standing ≤ next.standing := by
  have unclaimed := unclaimed_of_run run
  have unclaimed' := unclaimed_of_run (run.next step)
  have most' := (single' next found').1
  have grows := attempt_le_of_step step found found'
  rcases Nat.lt_or_eq_of_le grows with claimed | same
  · have never : row.attempt = 0 := by omega
    have queued := unclaimed id row found never
    have left := single'.claimed found' (by omega)
    refine Row.standing_lt ?_
    rw [queued]
    cases status : next.status with
    | queued => exact absurd status left
    | _ => decide
  · obtain ⟨testsDone, place⟩ := (paced_of_run run).onward step found found' same.symm
    refine Row.standing_le ?_ testsDone
    rcases Nat.eq_zero_or_pos row.attempt with never | claimed
    · rw [unclaimed id row found never, unclaimed' id next found' (same.symm.trans never)]
    · have left := single.claimed found (by omega)
      have left' := single'.claimed found' (by omega)
      revert place
      cases status : row.status <;> cases status' : next.status <;>
        simp_all [Status.place, Status.order]

/-- The worker of a job in a single attempt holds the attempt of its row. -/
theorem job_of_single (run : system.Run steps s) (single : SingleAttempt s id) {slot : Nat}
    {job : Job} (has : (s.workers slot).job? = some job) (own : job.id = id)
    (found : s.queue.store.submissions.get id = some row) :
    row.attempt = 1 ∧ job.attempt.toNat = 1 := by
  subst own
  have issued := ((sound_invariant.of_run run).holds has).issued
  exact attempt_of_single (reachable_fenced ⟨_, run⟩) issued found (single row found).1

/-- **At most one worker has the job of a single attempt.** -/
theorem worker_of_single (run : system.Run steps s) (single : SingleAttempt s id)
    {slot other : Nat} {job job' : Job} (has : (s.workers slot).job? = some job)
    (has' : (s.workers other).job? = some job') (own : job.id = id) (own' : job'.id = id) :
    slot = other := by
  by_contra different
  obtain ⟨row, found, _⟩ := ((sound_invariant.of_run run).holds has).row
  have found' : s.queue.store.submissions.get id = some row := by rwa [← own]
  obtain ⟨one, first⟩ := job_of_single run single has own found'
  obtain ⟨_, second⟩ := job_of_single run single has' own' found'
  exact (paced_of_run run).apart slot other job job' row different has has' (own.trans own'.symm)
    found (one.trans first.symm) (one.trans second.symm)

/-- **The row stays where it is while its worker does not write**, or it is done. -/
theorem Step.pending_kept (run : system.Run steps s) (step : Step s event after)
    (single : SingleAttempt s id) (single' : SingleAttempt after id) {slot : Nat} {job : Job}
    (has : (s.workers slot).job? = some job) (own : job.id = id)
    (rests : event.worker ≠ some slot)
    (found : s.queue.store.submissions.get id = some row)
    (found' : after.queue.store.submissions.get id = some next) :
    next = row ∨ next.status = .done := by
  obtain ⟨one, _⟩ := job_of_single run single has own found
  have most' := (single' next found').1
  have left := single'.claimed found'
  obtain ⟨next', held, moves⟩ := Step.row_cases step found
  cases found'.symm.trans held
  rcases moves with rfl | ⟨op, performs, moved⟩
  · exact .inl rfl
  · have foreign {token : Token} (writes : op.token? = some token) (key : row.id = token.id) :
        False := by
      obtain ⟨other, job', acts, has', rfl⟩ := performs.of_token writes
      have own' : job'.id = id := key.symm.trans (Table.get_key found)
      refine rests ?_
      rw [acts, worker_of_single run single has' has own' own]
    cases moved with
    | same => exact .inl rfl
    | claimed _ =>
      have more : row.attempt + 1 ≤ 1 := most'
      omega
    | progressed key _ _ => exact (foreign rfl key).elim
    | finished key _ _ => exact (foreign rfl key).elim
    | gaveUp key _ _ _ => exact (foreign rfl key).elim
    | retried key _ _ _ => exact (foreign rfl key).elim
    | sweptUp _ => exact .inr rfl
    | sweptBack _ => exact absurd rfl (left (by show row.attempt ≠ 0; omega))
    | restarted _ _ => exact absurd rfl (left (by show row.attempt ≠ 0; omega))

/-! ### States on their way -/

/-- **A state on its way was already, or is the row that was just read.** -/
theorem Step.pending (step : Step s event after) {slot : Nat} {sub : Submission}
    (has : (after.workers slot).pending = some sub) :
    (s.workers slot).pending = some sub ∧ (after.workers slot).job? = (s.workers slot).job? ∧
        (event.worker = some slot → after.queue = s.queue) ∨
      ∃ job world, (after.workers slot).job? = some job ∧ after.queue = s.queue ∧
        s.queue.store.get world job.id = .ok (some sub) := by
  by_cases acts : event.worker = some slot
  · cases step with
    | claim own world idle =>
      cases acts
      rw [System.workers_setWorker] at has
      unfold System.afterClaim at has
      split at has <;> cases has
    | abandon own world here missing =>
      cases acts
      rw [System.workers_setWorker] at has
      cases has
    | begin own here found =>
      cases acts
      rw [System.workers_setWorker] at has
      cases has
    | call own here calls answer =>
      cases acts
      rw [System.workers_setWorker] at has ⊢
      rw [here]
      exact .inl ⟨has, rfl, fun _ => rfl⟩
    | heartbeat own world here resting received writes =>
      cases acts
      rw [System.workers_setWorker] at has
      simp only [Phase.pending] at has
      split at has <;> cases has
    | @beatFetch own world run here reading =>
      cases acts
      rw [System.workers_setWorker] at has ⊢
      exact .inr ⟨run.job, world, rfl, rfl, Beat.pending_afterFetch has⟩
    | beatPublish own here ready =>
      cases acts
      rw [System.workers_setWorker] at has
      cases has
    | returned own here done drained resting =>
      cases acts
      rw [System.workers_setWorker] at has
      cases has
    | store own world here writes =>
      cases acts
      rw [System.workers_setWorker] at has
      cases has
    | @report own world job wrote here =>
      cases acts
      rw [System.workers_setWorker] at has ⊢
      unfold System.afterReport at has ⊢
      split at has
      · rename_i sub' reply
        cases has
        exact .inr ⟨job, world, rfl, rfl, reply⟩
      · cases has
    | publish own here =>
      cases acts
      rw [System.workers_setWorker] at has
      cases has
    | _ => cases acts
  · rcases Step.workers_other step acts with same | idle
    · rw [same] at has ⊢
      exact .inl ⟨has, rfl, fun own => absurd own acts⟩
    · rw [idle] at has
      cases has

/-- A state on its way is not ahead of the row, and not behind it unless the row is done. -/
def System.Tracks (s : System) (id : String) : Prop :=
  ∀ slot sub, (s.workers slot).pending = some sub → sub.id = id →
    ∃ job row, (s.workers slot).job? = some job ∧ job.id = id ∧
      s.queue.store.submissions.get id = some row ∧ sub.standing ≤ row.standing ∧
        (row.status ≠ .done → sub.standing = row.standing)

theorem System.Tracks.step (tracks : s.Tracks id) (run : system.Run steps s)
    (step : Step s event after) (single : SingleAttempt s id)
    (single' : SingleAttempt after id) : after.Tracks id := by
  intro slot sub has own
  rcases Step.pending step has with ⟨old, same, quiet⟩ | ⟨job, world, job', queue, got⟩
  · obtain ⟨job, row, has, key, found, behind, current⟩ := tracks slot sub old own
    obtain ⟨next, found', _⟩ := Step.row_cases step found
    refine ⟨job, next, same.trans has, key, found', ?_, ?_⟩
    · exact behind.trans (Step.standing run step single single' found found')
    · intro live
      by_cases acts : event.worker = some slot
      · rw [quiet acts, found] at found'
        cases found'
        exact current live
      · rcases Step.pending_kept run step single single' has key acts found found' with rfl | done
        · exact current live
        · exact absurd done live
  · obtain ⟨row, found, rfl⟩ := Store.row_of_get got
    have key : job.id = id := (Table.get_key found).symm.trans own
    refine ⟨job, row, job', key, ?_, le_refl _, fun _ => rfl⟩
    rw [queue, ← key]
    exact found

/-- What a stream may have emitted or may hold: not ahead of the row, nor of a state on its way. -/
def System.Allows (s : System) (id : String) (standing : Nat ×ₗ Nat) : Prop :=
  (∃ row, s.queue.store.submissions.get id = some row ∧ standing ≤ row.standing) ∧
    ∀ slot sub, (s.workers slot).pending = some sub → sub.id = id → standing ≤ sub.standing

/-- **What is allowed stays allowed.** -/
theorem System.Allows.step {standing : Nat ×ₗ Nat} (allows : s.Allows id standing)
    (run : system.Run steps s) (step : Step s event after) (single : SingleAttempt s id)
    (single' : SingleAttempt after id) : after.Allows id standing := by
  obtain ⟨⟨row, found, behind⟩, before⟩ := allows
  obtain ⟨next, found', _⟩ := Step.row_cases step found
  refine ⟨⟨next, found', behind.trans (Step.standing run step single single' found found')⟩, ?_⟩
  intro slot sub has own
  rcases Step.pending step has with ⟨old, _, _⟩ | ⟨job, world, _, _, got⟩
  · exact before slot sub old own
  · obtain ⟨row', held, rfl⟩ := Store.row_of_get got
    have key : job.id = id := (Table.get_key held).symm.trans own
    rw [key, found] at held
    cases held
    exact behind

/-! ### Streams of a single attempt -/

/-- A stream that reads a row that is not done holds no state that is behind it. -/
def ReadsInOrder (s : System) (id : String) : Event → Prop
  | .read number _ => ∀ stream row, s.hub.streams.get number = some stream → stream.id = id →
      s.queue.store.submissions.get id = some row →
        row.status = .done ∨ ∀ sub ∈ stream.waiting, row.standing ≤ sub.standing
  | _ => True

/-- The streams of a submission go forward. -/
def System.Rising (s : System) (hub : Hub) (id : String) : Prop :=
  ∀ number stream, hub.streams.get number = some stream → stream.id = id →
    stream.Rising (s.Allows id)

/-- A state on its way is allowed, and nothing that is allowed is ahead of it. -/
theorem System.Tracks.allows (tracks : s.Tracks id) (run : system.Run steps s)
    (single : SingleAttempt s id) {slot : Nat} {sub : Submission}
    (has : (s.workers slot).pending = some sub) (own : sub.id = id) :
    s.Allows id sub.standing := by
  obtain ⟨job, row, job', key, found, behind, _⟩ := tracks slot sub has own
  refine ⟨⟨row, found, behind⟩, fun other sub' has' own' => ?_⟩
  obtain ⟨job₂, _, job₂', key', _, _, _⟩ := tracks other sub' has' own'
  have same := worker_of_single run single job' job₂' key key'
  subst same
  cases has.symm.trans has'
  exact le_refl _

/-- A row that is not done is allowed. -/
theorem System.Tracks.allows_row (tracks : s.Tracks id)
    (found : s.queue.store.submissions.get id = some row) (live : row.status ≠ .done) :
    s.Allows id row.standing := by
  refine ⟨⟨row, found, le_refl _⟩, fun slot sub has own => ?_⟩
  obtain ⟨_, row', _, _, found', _, current⟩ := tracks slot sub has own
  cases found.symm.trans found'
  exact (current live).ge

/-- **No action makes a stream go back**, if rows are read in order. -/
theorem System.Rising.acts (rising : s.Rising s.hub id) (tracks : s.Tracks id)
    (run : system.Run steps s) (step : Step s event after) (single : SingleAttempt s id)
    (reads : ReadsInOrder s id event) : s.Rising after.hub id := by
  obtain ⟨acts, history⟩ := hub_of_server run
  have attached := attached_invariant.of_run history
  rcases Step.acts step with same | new | ⟨act, touches, acted⟩
  · rw [same]
    exact rising
  · rw [new]
    exact fun _ _ found => by cases found
  · intro number next found' own
    cases found : s.hub.streams.get number with
    | none =>
      obtain ⟨_, _, rfl⟩ := acted.fresh found found'
      exact .start rfl rfl
    | some stream =>
      have stage := ((shaped_of_run history).2 number stream found).stage
      obtain ⟨next', held, goes⟩ := acted.goes attached found
      cases found'.symm.trans held
      cases goes with
      | same _ => exact rising number _ found own
      | received live key =>
        cases touches with
        | publish _ ready =>
          refine (rising number stream found own).receive (fun standing allows => ?_) ?_
          · exact allows.2 _ _ ready (key.symm.trans own)
          · exact tracks.allows run single ready (key.symm.trans own)
      | @opened _ reply waits =>
        have key : stream.number = number := Table.get_key found
        have same : stream.id = id := (Stream.steady_opened waits reply).id.symm.trans own
        have before := rising number stream found same
        cases touches with
        | @read _ world other here =>
          have one : other = stream := Option.some.inj (here.symm.trans (by rwa [key]))
          rw [one]
          cases got : s.queue.store.get world stream.id with
          | error e => exact before.close
          | ok current =>
            cases current with
            | none => exact before.close
            | some current =>
              obtain ⟨row, held, rfl⟩ := Store.row_of_get got
              rw [same] at held
              rw [waits] at stage
              refine before.opened stage.of_subscribed ?_ fun live => tracks.allows_row held live
              exact reads stream row (by rwa [key]) same held
      | polled joined =>
        have same : stream.id = id := (Stream.steady_poll _).id.symm.trans own
        exact (rising number stream found same).poll stage joined
      | hungUp => exact (rising number stream found own).close

end Steps

/-! ### Runs -/

section Runs

variable {steps : List (Transition System Event)} {s : System} {id : String}

/-- A run in which a submission is judged in a single attempt, as far as it goes. -/
structure SingleRun (id : String) (steps : List (Transition System Event)) (s : System) :
    Prop where
  run : system.Run steps s
  single : ∀ taken ∈ steps, SingleAttempt taken.after id

theorem SingleRun.last (alone : SingleRun id steps s) : SingleAttempt s id := by
  obtain ⟨run, single⟩ := alone
  cases run with
  | start initial =>
    obtain ⟨settings, rfl⟩ := initial
    intro row found
    cases found
  | next _ _ => exact single _ List.mem_cons_self

theorem SingleRun.earlier {taken : Transition System Event} {before : System}
    (alone : SingleRun id (taken :: steps) s) (run : system.Run steps before) :
    SingleRun id steps before :=
  ⟨run, fun earlier member => alone.single earlier (List.mem_cons_of_mem _ member)⟩

theorem SingleRun.next {event : Event} {after : System} (alone : SingleRun id steps s)
    (step : Step s event after) (single : SingleAttempt after id) :
    SingleRun id (⟨s, event, after⟩ :: steps) after := by
  refine ⟨alone.run.next step, fun taken member => ?_⟩
  rcases List.mem_cons.mp member with rfl | old
  · exact single
  · exact alone.single taken old

/-- An action without a call on the store. -/
theorem SingleRun.rest {event : Event} {after : System} (alone : SingleRun id steps s)
    (step : Step s event after) (same : after.queue = s.queue) :
    SingleRun id (⟨s, event, after⟩ :: steps) after := by
  refine alone.next step fun row found => alone.last row ?_
  rwa [← same]

/-- **What waits and what is on its way stays in order**, if rows are read in order. -/
theorem rising_of_run (alone : SingleRun id steps s)
    (reads : ∀ taken ∈ steps, ReadsInOrder taken.before id taken.label) :
    s.Tracks id ∧ s.Rising s.hub id := by
  have run := alone.run
  induction run with
  | start initial =>
    obtain ⟨settings, rfl⟩ := initial
    exact ⟨fun _ _ has => (by cases has), fun _ _ found => (by cases found)⟩
  | next run step ih =>
    have before := alone.earlier run
    obtain ⟨tracks, rising⟩ := ih before fun taken member =>
      reads taken (List.mem_cons_of_mem _ member)
    refine ⟨tracks.step run step before.last alone.last, fun number stream found own => ?_⟩
    have after := rising.acts tracks run step before.last (reads _ List.mem_cons_self)
    exact (after number stream found own).mono fun standing allows =>
      allows.step run step before.last alone.last

/-- **A stream never goes back if its row is read in order**: in a run in which a submission is
judged in a single attempt, and no stream of it that reads a row that is not done holds an older
state, what its streams emit is in order. -/
theorem emitted_in_order (alone : SingleRun id steps s)
    (reads : ∀ taken ∈ steps, ReadsInOrder taken.before id taken.label) :
    ∀ stream ∈ s.hub.streams.rows, stream.id = id →
      stream.emitted.Pairwise fun earlier later => earlier.standing ≤ later.standing := by
  intro stream inside own
  have rising := (rising_of_run alone reads).2 stream.number stream (Table.get_of_mem inside) own
  exact rising.shown.sublist (List.sublist_append_left _ _)

omit [Host] in
theorem Hub.get_polled {hub : Hub} {number : Nat} {stream : Stream}
    (found : hub.streams.get number = some stream) :
    (hub.polled number stream).streams.get number = some (stream.poll (hub.connected stream)) := by
  rw [Hub.polled, Hub.get_change_of_some found, if_pos (Table.get_key found)]

/-- **Only then**: a stream that reads a row ahead of the oldest state it holds can go back. -/
theorem goes_back_of_stale (alone : SingleRun id steps s) {number : Nat} {world : World}
    {stream : Stream} {row : Row} {sub : Submission} {rest : List Submission}
    (found : s.hub.streams.get number = some stream) (own : stream.id = id)
    (fresh : stream.phase = .subscribed) (silent : stream.emitted = [])
    (waits : stream.waiting = sub :: rest) (held : s.queue.store.submissions.get id = some row)
    (works : world.fault 0 = none) (live : row.status ≠ .done)
    (stale : ¬ row.standing ≤ sub.standing) :
    ∃ steps' s', SingleRun id steps' s' ∧ ∃ stream' ∈ s'.hub.streams.rows, stream'.id = id ∧
      ¬ stream'.emitted.Pairwise fun earlier later => earlier.standing ≤ later.standing := by
  have key : stream.number = number := Table.get_key found
  have got : s.queue.store.get world stream.id = .ok (some row.toSubmission) :=
    Store.get_of_row (by rwa [own]) works
  have alone := alone.rest (Step.read number world found fresh) rfl
  have found : (s.hub.opened number (s.queue.store.get world stream.id)).streams.get number =
      some { stream with phase := .streaming (some row.toSubmission) false } := by
    rw [Hub.opened, Hub.get_change_of_some found, if_pos key, got]
    rfl
  have alone := alone.rest (Step.poll number found) rfl
  have found := Hub.get_polled found
  have alone := alone.rest (Step.poll number found) rfl
  have found := Hub.get_polled found
  refine ⟨_, _, alone, _, (Table.get_eq_some.mp found).1, ?_, ?_⟩
  · exact (Stream.steady_poll _).id.trans ((Stream.steady_poll _).id.trans own)
  · have first : (row.toSubmission.status = .done) = False := eq_false live
    have both (connected connected' : Bool) :
        ((({ stream with phase := .streaming (some row.toSubmission) false } : Stream).poll
          connected).poll connected').emitted = [row.toSubmission, sub] := by
      simp [Stream.poll, Stream.emit, first, waits, silent]
    rw [both]
    intro sorted
    exact stale (List.rel_of_pairwise_cons sorted List.mem_cons_self)

end Runs

end Server

/-! ### Two runs -/

/-- The row while one of its tests, or none, is done. -/
def runningState (testsDone : Nat) : Submission :=
  { (queuedRow (worldAt 0) sampleSubmission) with
    status := .running
    attempt := 1
    testsDone := testsDone
    testsTotal := 1 : Row }.toSubmission

set_option maxRecDepth 10000 in
/-- A stream that reads the row before the worker begins. -/
theorem emitted_in_order_sample : letI := plainHost
    ∃ steps s, SingleRun "s1" steps s ∧ ∃ stream ∈ s.hub.streams.rows,
      stream.emitted.map Submission.status = [.queued, .running] ∧
        stream.emitted.Pairwise fun earlier later => earlier.standing ≤ later.standing := by
  let host := plainHost
  have run : SingleRun "s1" [] (started sampleSettings) :=
    ⟨run_started sampleSettings, fun _ inside => absurd inside List.not_mem_nil⟩
  have run := run.next (Step.insert (worldAt 0) sampleSubmission) (.of_all rfl)
  have run := run.next (Step.subscribe "s1" 0 rfl) (.of_all rfl)
  have run := run.next (Step.read 0 (worldAt 0) rfl rfl) (.of_all rfl)
  have run := run.next (Step.claim 0 (worldAt 0) rfl) (.of_all rfl)
  have run := run.next (Step.begin 0 rfl rfl) (.of_all rfl)
  have run := run.next (Step.call 0 rfl rfl (by exact .ok ())) (.of_all rfl)
  have run := run.next (Step.call 0 rfl rfl (by exact .ok ())) (.of_all rfl)
  have run := run.next (Step.call 0 rfl rfl (by exact ())) (.of_all rfl)
  have run := run.next (Step.heartbeat 0 (worldAt 0) rfl rfl rfl rfl) (.of_all rfl)
  have run := run.next (Step.beatFetch 0 (worldAt 0) rfl rfl) (.of_all rfl)
  have run := run.next (@Step.beatPublish _ _ 0 _ (runningState 0) rfl rfl) (.of_all rfl)
  have run := run.next (Step.poll 0 rfl) (.of_all rfl)
  have run := run.next (Step.poll 0 rfl) (.of_all rfl)
  refine ⟨_, _, run, _, List.mem_cons_self, rfl, emitted_in_order run ?_ _ List.mem_cons_self rfl⟩
  iterate 10 refine List.forall_mem_cons.mpr ⟨trivial, ?_⟩
  refine List.forall_mem_cons.mpr ⟨?_, ?_⟩
  · intro stream row found own held
    cases found
    exact .inr fun sub waits => absurd waits List.not_mem_nil
  · iterate 2 refine List.forall_mem_cons.mpr ⟨trivial, ?_⟩
    exact fun _ inside => absurd inside List.not_mem_nil

set_option maxRecDepth 10000 in
/-- **A stream goes back**: after it has subscribed and before it reads the row, the first progress
is published and the second is recorded. -/
theorem stream_goes_back : letI := plainHost
    ¬ ∀ (id : String) (steps : List (Transition System Event)) (s : System),
      SingleRun id steps s → ∀ stream ∈ s.hub.streams.rows, stream.id = id →
        stream.emitted.Pairwise fun earlier later => earlier.standing ≤ later.standing := by
  let host := plainHost
  intro always
  have run : SingleRun "s1" [] (started sampleSettings) :=
    ⟨run_started sampleSettings, fun _ inside => absurd inside List.not_mem_nil⟩
  have run := run.next (Step.insert (worldAt 0) sampleSubmission) (.of_all rfl)
  have run := run.next (Step.subscribe "s1" 0 rfl) (.of_all rfl)
  have run := run.next (Step.claim 0 (worldAt 0) rfl) (.of_all rfl)
  have run := run.next (Step.begin 0 rfl rfl) (.of_all rfl)
  have run := run.next (Step.call 0 rfl rfl (by exact .ok ())) (.of_all rfl)
  have run := run.next (Step.call 0 rfl rfl (by exact .ok ())) (.of_all rfl)
  have run := run.next (Step.call 0 rfl rfl (by exact ())) (.of_all rfl)
  have run := run.next (Step.call 0 rfl rfl (by exact .ok ⟨.ok, utf8 "2\n", [], 10, 20, 3000⟩))
    (.of_all rfl)
  have run := run.next (Step.call 0 rfl rfl (by exact ())) (.of_all rfl)
  have run := run.next (Step.heartbeat 0 (worldAt 0) rfl rfl rfl rfl) (.of_all rfl)
  have run := run.next (Step.beatFetch 0 (worldAt 0) rfl rfl) (.of_all rfl)
  have run := run.next (@Step.beatPublish _ _ 0 _ (runningState 0) rfl rfl) (.of_all rfl)
  have run := run.next (Step.heartbeat 0 (worldAt 0) rfl rfl rfl rfl) (.of_all rfl)
  have back := @goes_back_of_stale _ _ _ _ run 0 (worldAt 0)
    ⟨0, "s1", 0, [runningState 0], .subscribed, []⟩ _ (runningState 0) [] rfl rfl rfl rfl rfl rfl
    rfl (by decide) (by decide)
  obtain ⟨steps, s, run, stream, inside, own, goes⟩ := back
  exact goes (always "s1" steps s run stream inside own)

end Codexec.Server
