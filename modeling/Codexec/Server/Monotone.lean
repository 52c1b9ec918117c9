/-
**The progress that a row shows.**

The events of a judging run wait in a channel, and the heartbeat records them while the run goes on.
As long as the token of a worker matches the row, the row is not ahead of anything that this worker
may still write (`Phase.Ahead`), and no other worker holds that token (`Paced.apart`). So within one
attempt a row only goes forward (`Step.onward`), and over a run from any state to any later one
(`progress_monotone`).
-/

import Codexec.Server.Working

namespace Codexec.Server

open Codexec Codexec.Library Machine Program

/-! ### How far a row is -/

/-- The order of the states of an attempt. -/
def Status.place : Status → Nat
  | .compiling => 0
  | .running => 1
  | .queued => 2
  | .done => 3

/-- How far the tests of a row are, in terms of the events that put them there. -/
def Row.reach (row : Row) : Nat :=
  if row.status = .running ∨ row.testsDone ≠ 0 then row.testsDone + 1 else 0

/-- A later state of the same attempt. -/
structure Onward (row next : Row) : Prop where
  testsDone : row.testsDone ≤ next.testsDone
  place : row.status.place ≤ next.status.place

theorem Onward.refl (row : Row) : Onward row row := ⟨Nat.le_refl _, Nat.le_refl _⟩

theorem Onward.trans {row middle next : Row} (first : Onward row middle)
    (second : Onward middle next) : Onward row next :=
  ⟨first.testsDone.trans second.testsDone, first.place.trans second.place⟩

section Reach

variable {row next : Row}

/-- A row that leaves the tests as they are and does not run is no further. -/
theorem Row.reach_le (same : next.testsDone = row.testsDone) (stopped : next.status ≠ .running) :
    next.reach ≤ row.reach := by
  unfold reach
  by_cases none : row.testsDone = 0
  · simp [same, none, stopped]
  · simp [same, none]

theorem Row.testsDone_le {n : Nat} (behind : row.reach ≤ n + 1) : row.testsDone ≤ n := by
  unfold reach at behind
  by_cases none : row.testsDone = 0
  · rw [none]
    exact Nat.zero_le n
  · rw [if_pos (Or.inr none)] at behind
    exact Nat.le_of_succ_le_succ behind

theorem Row.testsDone_eq_zero (fresh : row.reach = 0) : row.testsDone = 0 := by
  unfold reach at fresh
  by_contra some
  rw [if_pos (Or.inr some)] at fresh
  cases fresh

theorem Row.reach_progressed (world : World) (report : Progress) (leaseMs : Int64) :
    ((progressed world (Judging.recorded report).1 (Judging.recorded report).2.1
      (Judging.recorded report).2.2 leaseMs).set row).reach = report.reach := by
  cases report with
  | compiling => rfl
  | running done total => exact if_pos (Or.inl rfl)

/-- **What is recorded goes forward**, if it is not behind the row. -/
theorem onward_recorded (report : Progress) (behind : row.reach ≤ report.reach)
    (flying : row.status.inFlight = true) :
    row.testsDone ≤ (Judging.recorded report).2.1 ∧
      row.status.place ≤ (Judging.recorded report).1.place := by
  unfold Row.reach at behind
  cases report with
  | compiling =>
    split at behind
    · exact absurd behind (Nat.not_succ_le_zero _)
    · next fresh =>
      rw [not_or, not_not] at fresh
      refine ⟨fresh.2.le, ?_⟩
      cases status : row.status with
      | compiling => exact Nat.le_refl _
      | running => exact absurd status fresh.1
      | _ => rw [status] at flying; cases flying
  | running done total =>
    constructor
    · show row.testsDone ≤ done
      split at behind
      · exact Nat.le_of_succ_le_succ behind
      · next fresh =>
        rw [not_or, not_not] at fresh
        rw [fresh.2]
        exact Nat.zero_le _
    · cases status : row.status with
      | compiling => exact Nat.zero_le _
      | running => exact Nat.le_refl _
      | _ => rw [status] at flying; cases flying

end Reach

/-- The token of a claim is no later than the attempt of its row. -/
theorem attempt_of_issued {state : Queue} (fenced : state.Fenced) {token : Token}
    (issued : token ∈ state.issued) {row : Row}
    (found : state.store.submissions.get token.id = some row) :
    token.attempt.toNat ≤ row.attempt := by
  have inside : token ∈ state.tokens token.id := List.mem_filter.mpr ⟨issued, decide_eq_true rfl⟩
  have counted := List.mem_map_of_mem (f := Token.attempt) inside
  rw [fenced token.id, Store.attempts_of_get found] at counted
  obtain ⟨k, _, most, same⟩ := mem_countdown counted
  rw [same, UInt32.toNat_ofNat']
  exact (Nat.mod_le _ _).trans most

section Server

variable [Host]

/-! ### Workers and their rows -/

/-- Nothing that the worker may still write is behind the row. -/
def Phase.Ahead (row : Row) : Phase → Prop
  | .claimed _ => row.reach = 0
  | .judging run => row.reach ≤ run.stage.reach ∧ ∀ event ∈ run.channel, row.reach ≤ event.reach
  | .storing _ _ outcome => ∀ result, outcome = .ok result → row.testsDone ≤ result.tests.length
  | _ => True

theorem Phase.Ahead.mono {row next : Row} {phase : Phase} (ahead : phase.Ahead row)
    (reach : next.reach ≤ row.reach) (testsDone : next.testsDone ≤ row.testsDone) :
    phase.Ahead next := by
  cases phase with
  | claimed job => exact Nat.le_zero.mp (reach.trans (Nat.le_of_eq ahead))
  | judging run =>
    exact ⟨reach.trans ahead.1, fun event inside => reach.trans (ahead.2 event inside)⟩
  | storing job problem outcome => exact fun result same => testsDone.trans (ahead result same)
  | _ => trivial

/-- A worker whose token matches a row is not behind it, and is the only one. -/
structure Paced (s : System) : Prop where
  ahead : ∀ slot job row, (s.workers slot).job? = some job →
    s.queue.store.submissions.get job.id = some row → row.attempt = job.attempt.toNat →
      (s.workers slot).Ahead row
  apart : ∀ slot other job job' row, slot ≠ other → (s.workers slot).job? = some job →
    (s.workers other).job? = some job' → job.id = job'.id →
      s.queue.store.submissions.get job.id = some row → row.attempt = job.attempt.toNat →
        row.attempt ≠ job'.attempt.toNat

section Steps

variable {s after : System} {event : Event}

/-- **The row of a worker that does not act** gets no further in its attempt. -/
theorem Paced.row_kept (paced : Paced s) (sound : Sound s) (fenced : s.queue.Fenced)
    (step : Step s event after) {other : Nat} {job : Job} {row next : Row}
    (rests : event.worker ≠ some other) (has : (s.workers other).job? = some job)
    (found : s.queue.store.submissions.get job.id = some row)
    (found' : after.queue.store.submissions.get job.id = some next)
    (own : next.attempt = job.attempt.toNat) :
    next.attempt = row.attempt ∧ next.reach ≤ row.reach ∧ next.testsDone ≤ row.testsDone := by
  obtain ⟨next', held, moves⟩ := Step.row_cases step found
  cases found'.symm.trans held
  rcases moves with rfl | ⟨op, performs, moved⟩
  · exact ⟨rfl, Nat.le_refl _, Nat.le_refl _⟩
  · -- The token of a write is that of another worker.
    have foreign {token : Token} (writes : op.token? = some token) (key : row.id = token.id) :
        row.attempt = token.attempt.toNat → next.attempt = row.attempt → False := by
      intro current same
      obtain ⟨slot, job', acts, has', rfl⟩ := performs.of_token writes
      have apart : other ≠ slot := fun same => rests (by rw [acts, same])
      have key' : job.id = job'.id := (Table.get_key found).symm.trans key
      exact paced.apart other slot job job' row apart has has' key' found (same.symm.trans own)
        current
    cases moved with
    | same => exact ⟨rfl, Nat.le_refl _, Nat.le_refl _⟩
    | claimed _ =>
      have least : job.attempt.toNat ≤ row.attempt :=
        attempt_of_issued fenced (sound.holds has).issued found
      have more : row.attempt + 1 = job.attempt.toNat := own
      omega
    | progressed key current _ => exact (foreign rfl key current rfl).elim
    | finished key current _ => exact (foreign rfl key current rfl).elim
    | gaveUp key current _ _ => exact (foreign rfl key current rfl).elim
    | retried key current _ _ => exact (foreign rfl key current rfl).elim
    | sweptUp _ => exact ⟨rfl, Row.reach_le rfl Status.noConfusion, Nat.le_refl _⟩
    | sweptBack _ => exact ⟨rfl, Row.reach_le rfl Status.noConfusion, Nat.le_refl _⟩
    | restarted _ _ => exact ⟨rfl, Row.reach_le rfl Status.noConfusion, Nat.le_refl _⟩

/-- **The row of the worker that acts** is not ahead of it afterwards. -/
theorem Paced.ahead_moved (paced : Paced s) (sound : Sound s)
    (knows : ∀ slot, (s.workers slot).Knows s.settings) (step : Step s event after) {slot : Nat}
    {job : Job} {next : Row} (acts : event.worker = some slot)
    (moves : Moves s event (s.workers slot) (after.workers slot))
    (has : (after.workers slot).job? = some job)
    (found' : after.queue.store.submissions.get job.id = some next)
    (own : next.attempt = job.attempt.toNat) : (after.workers slot).Ahead next := by
  have quiet (none : ∀ op, ¬ Performs s event op) (old : (s.workers slot).job? = some job) :
      (s.workers slot).Ahead next := by
    rcases Step.performs step with same | ⟨op, performs, _⟩
    · rw [same] at found'
      exact paced.ahead slot job next old found' own
    · exact absurd performs (none op)
  have known := knows slot
  revert has quiet known
  generalize here : s.workers slot = before, there : after.workers slot = phase at moves
  intro has quiet known
  cases moves with
  | @claimed _ world _ claims =>
    cases acts
    cases has
    obtain ⟨row, _, taken⟩ := row_of_claim claims
    cases step with
    | claim _ _ _ =>
      cases found'.symm.trans taken
      rfl
  | begun found =>
    cases has
    have fresh := quiet (fun op performs => by cases performs) rfl
    exact ⟨Nat.le_of_eq fresh, fun event inside => absurd inside List.not_mem_nil⟩
  | @called _ run request _ calls answer =>
    cases has
    obtain ⟨reach, channel⟩ := quiet (fun op performs => by cases performs) rfl
    obtain ⟨_, further, new⟩ := known.2.answered calls answer
    refine ⟨reach.trans further, fun event inside => ?_⟩
    rcases List.mem_append.mp inside with old | sent
    · exact channel event old
    · exact reach.trans (new event sent)
  | @heard _ world run report later received beat =>
    cases acts
    cases has
    have job : (s.workers slot).job? = some run.job := by rw [here]; rfl
    obtain ⟨row, found, _⟩ := (sound.holds job).row
    -- The row is where the event puts it, or where it was.
    have shown : next = row ∨ next.reach = report.reach := by
      obtain ⟨next', held, moves⟩ := Step.row_cases step found
      cases found'.symm.trans held
      rcases moves with same | ⟨op, performs, moved⟩
      · exact Or.inl same
      · cases performs with
        | heartbeat here' received' =>
          cases here.symm.trans here'
          cases received.symm.trans received'
          cases moved with
          | same => exact Or.inl rfl
          | progressed _ _ _ => exact Or.inr (Row.reach_progressed world report _)
    obtain ⟨_, ordered⟩ := known
    have sorted := ordered.sorted
    rw [received] at sorted
    rcases shown with rfl | reach
    · have ahead := paced.ahead slot run.job next job found own
      rw [here] at ahead
      exact ⟨ahead.1, fun event inside => ahead.2 event (by
        rw [received]
        exact List.mem_cons_of_mem _ inside)⟩
    · have first := ordered.reach report (by rw [received]; exact List.mem_cons_self)
      exact ⟨reach.trans_le first, fun event inside =>
        reach.trans_le ((List.pairwise_cons.mp sorted).1 event inside)⟩
  | fetched beat =>
    cases has
    exact quiet (fun op performs => by cases performs) rfl
  | published beat =>
    cases has
    exact quiet (fun op performs => by cases performs) rfl
  | @returned _ run outcome done =>
    cases has
    obtain ⟨reach, _⟩ := quiet (fun op performs => by cases performs) rfl
    intro result same
    rcases run.obeys with ⟨e, stopped⟩ | ⟨lang, _, obeys⟩
    · cases (done.symm.trans stopped).symm.trans (congrArg _ same)
    · rw [done] at obeys
      rcases obeys.of_pure result same with ⟨compiled, _⟩ | running
      · rw [compiled] at reach
        rw [Row.testsDone_eq_zero (Nat.le_zero.mp reach)]
        exact Nat.zero_le _
      · rw [running] at reach
        exact Row.testsDone_le reach
  | stored wrote => trivial
  | reported sub => trivial

/-- **A new attempt** is that of one worker. -/
theorem Paced.fresh (paced : Paced s) (sound : Sound s) (fenced : s.queue.Fenced)
    (step : Step s event after) {slot other : Nat} {job job' : Job} {world : World} {next : Row}
    (different : slot ≠ other) (claim : event = .claim slot world)
    (claims : (s.queue.store.claimNext world s.settings.leaseMs).1 = .ok (some job))
    (has : (s.workers other).job? = some job') (key : job.id = job'.id)
    (found' : after.queue.store.submissions.get job.id = some next)
    (own : next.attempt = job'.attempt.toNat) : False := by
  obtain ⟨row, found, taken⟩ := row_of_claim claims
  subst claim
  have rests : (Event.claim slot world).worker ≠ some other := fun same =>
    different (Option.some.inj same)
  have claimed : next = (claimed world s.settings.leaseMs).set row := by
    cases step with
    | claim _ _ _ => exact Option.some.inj (found'.symm.trans taken)
  rw [key] at found found'
  have kept := (paced.row_kept sound fenced step rests has found found' own).1
  rw [claimed] at kept
  exact absurd kept (Nat.succ_ne_self _)

/-- **Every step keeps the pace.** -/
theorem Paced.step (paced : Paced s) (sound : Sound s) (fenced : s.queue.Fenced)
    (knows : ∀ slot, (s.workers slot).Knows s.settings) (step : Step s event after) :
    Paced after where
  ahead slot job next has found' own := by
    rcases Step.worker_cases step slot with idle | ⟨_, ⟨rests, same⟩ | ⟨acts, moves⟩⟩
    · rw [idle] at has
      cases has
    · rw [same] at has ⊢
      obtain ⟨row, found, _⟩ := (sound.holds has).row
      obtain ⟨attempt, reach, testsDone⟩ :=
        paced.row_kept sound fenced step rests has found found' own
      exact (paced.ahead slot job row has found (attempt.symm.trans own)).mono reach testsDone
    · exact paced.ahead_moved sound knows step acts moves has found' own
  apart slot other job job' next different has has' key found' own own' := by
    rcases Step.job step has with old | ⟨world, claim, claims⟩
    · rcases Step.job step has' with old' | ⟨world, claim, claims⟩
      · obtain ⟨row, found, _⟩ := (sound.holds old).row
        have same : next.attempt = row.attempt := by
          by_cases acts : event.worker = some slot
          · have rests : event.worker ≠ some other := fun same =>
              different (Option.some.inj (acts.symm.trans same))
            rw [key] at found found'
            exact (paced.row_kept sound fenced step rests old' found found' own').1
          · exact (paced.row_kept sound fenced step acts old found found' own).1
        exact paced.apart slot other job job' row different old old' key found
          (same.symm.trans own) (same.symm.trans own')
      · rw [key] at found'
        exact paced.fresh sound fenced step different.symm claim claims old key.symm found' own
    · rcases Step.job step has' with old' | ⟨world', claim', _⟩
      · exact paced.fresh sound fenced step different claim claims old' key found' own'
      · cases claim.symm.trans claim'
        exact different rfl

/-- **A row that keeps its attempt goes forward.** -/
theorem Paced.onward (paced : Paced s) (step : Step s event after) {id : String} {row next : Row}
    (found : s.queue.store.submissions.get id = some row)
    (found' : after.queue.store.submissions.get id = some next)
    (same : next.attempt = row.attempt) : Onward row next := by
  obtain ⟨next', held, moves⟩ := Step.row_cases step found
  cases found'.symm.trans held
  rcases moves with rfl | ⟨op, performs, moved⟩
  · exact .refl _
  · have key : row.id = id := Table.get_key found
    have flies (flying : row.status.inFlight = true) : row.status.place ≤ 1 := by
      cases status : row.status with
      | compiling => exact Nat.zero_le 1
      | running => exact Nat.le_refl 1
      | _ =>
        rw [status] at flying
        cases flying
    have lives (live : row.status ≠ .done) : row.status.place ≤ 2 := by
      cases status : row.status with
      | done => exact absurd status live
      | _ => decide
    have most : row.status.place ≤ 3 := by cases row.status <;> decide
    cases moved with
    | same => exact .refl _
    | claimed _ => exact absurd same (Nat.succ_ne_self _)
    | progressed key' own flying =>
      obtain ⟨slot, run, report, later, rfl, here, received, rfl, recorded⟩ := performs.of_progress
      have has : (s.workers slot).job? = some run.job := by rw [here]; rfl
      have ahead := paced.ahead slot run.job row has
        (by rw [← show row.id = run.job.id from key', key]; exact found) own
      rw [here] at ahead
      have behind := ahead.2 report (by rw [received]; exact List.mem_cons_self)
      obtain ⟨testsDone, place⟩ := onward_recorded report behind flying
      rw [← recorded] at testsDone place
      exact ⟨testsDone, place⟩
    | finished key' own _ =>
      obtain ⟨slot, job, problem, rfl, here, rfl, rfl⟩ := performs.of_finish
      have has : (s.workers slot).job? = some job := by rw [here]; rfl
      have ahead := paced.ahead slot job row has
        (by rw [← show row.id = job.id from key', key]; exact found) own
      rw [here] at ahead
      exact ⟨ahead _ rfl, most⟩
    | gaveUp _ _ _ _ => exact ⟨Nat.le_refl _, most⟩
    | retried _ _ live _ => exact ⟨Nat.le_refl _, lives live⟩
    | sweptUp _ => exact ⟨Nat.le_refl _, most⟩
    | sweptBack found =>
      rw [recoverable, Bool.and_eq_true, expired, Bool.and_eq_true] at found
      exact ⟨Nat.le_refl _, (flies found.1.1).trans (Nat.le_succ 1)⟩
    | restarted _ flying => exact ⟨Nat.le_refl _, (flies flying).trans (Nat.le_succ 1)⟩

/-- No more tests are done than the row says there are, nor than its problem has. -/
structure Measured (s : System) (row : Row) : Prop where
  shown : row.testsDone ≤ row.testsTotal
  loaded : row.testsDone = 0 ∨ ∃ settings ∈ s.loaded, ∃ problem,
    settings.problems.get row.problem = some problem ∧ row.testsDone ≤ problem.tests.length

theorem Measured.of_zero {row : Row} (none : row.testsDone = 0) : Measured s row :=
  ⟨by rw [none]; exact Nat.zero_le _, Or.inl none⟩

/-- **No step records more tests than there are.** -/
theorem Step.measured (step : Step s event after) (sound : Sound s)
    (knows : ∀ slot, (s.workers slot).Knows s.settings)
    (measured : ∀ id row, s.queue.store.submissions.get id = some row → Measured s row) {id : String}
    {next : Row} (found' : after.queue.store.submissions.get id = some next) :
    Measured after next := by
  cases found : s.queue.store.submissions.get id with
  | none =>
    obtain ⟨world, new, _, rfl⟩ := Step.row_new step found found'
    exact .of_zero rfl
  | some row =>
    have loaded := (Step.grows step).loaded
    have old : Measured after row := by
      obtain ⟨shown, none | ⟨settings, inside, problem, stored, most⟩⟩ := measured id row found
      · exact .of_zero none
      · exact ⟨shown, Or.inr ⟨settings, loaded settings inside, problem, stored, most⟩⟩
    obtain ⟨next', held, moves⟩ := Step.row_cases step found
    cases found'.symm.trans held
    rcases moves with rfl | ⟨op, performs, moved⟩
    · exact old
    · have key : row.id = id := Table.get_key found
      cases moved with
      | claimed _ => exact .of_zero rfl
      | progressed key' own flying =>
        obtain ⟨slot, run, report, later, rfl, here, received, rfl, recorded⟩ :=
          performs.of_progress
        rw [← key, show row.id = run.job.id from key'] at found
        have problem : row.problem = run.job.problem := sound.problem (by rw [here]; rfl) found
        have known := knows slot
        rw [here] at known
        cases report with
        | compiling => exact .of_zero (congrArg (fun written => written.2.1) recorded)
        | running done total =>
          have fits := known.2.fits (.running done total) (by
            rw [received]
            exact List.mem_cons_self)
          have number := congrArg (fun written => written.2.1) recorded
          have all := congrArg (fun written => written.2.2) recorded
          refine ⟨?_, Or.inr ⟨s.settings, loaded _ sound.current, run.problem,
            (congrArg s.settings.problems.get problem).trans known.1.2, number.trans_le fits.1⟩⟩
          exact number.trans_le (fits.1.trans_eq (fits.2.symm.trans all.symm))
      | finished key' own _ =>
        obtain ⟨slot, job, problem, rfl, here, rfl, rfl⟩ := performs.of_finish
        rw [← key, show row.id = job.id from key'] at found
        have same : row.problem = job.problem := sound.problem (by rw [here]; rfl) found
        have known := knows slot
        rw [here] at known
        obtain ⟨stored, _, number, most⟩ := known.result
        exact ⟨most.trans_eq number.symm, Or.inr ⟨s.settings, loaded _ sound.current, problem,
          (congrArg s.settings.problems.get same).trans stored, most⟩⟩
      | same => exact old
      | _ => exact ⟨old.shown, old.loaded⟩

end Steps

/-! ### Runs -/

section Runs

variable {steps : List (Transition System Event)} {s : System}

theorem paced_of_run (run : system.Run steps s) : Paced s := by
  induction run with
  | start initial =>
    obtain ⟨settings, rfl⟩ := initial
    refine ⟨fun slot job row has => ?_, fun slot other job job' row _ has => ?_⟩
    · cases has
    · cases has
  | next earlier step ih =>
    exact ih.step (sound_invariant.of_run earlier) (reachable_fenced ⟨_, earlier⟩)
      (knows_invariant.of_run earlier) step

theorem measured_of_run (run : system.Run steps s) :
    ∀ id row, s.queue.store.submissions.get id = some row → Measured s row := by
  induction run with
  | start initial =>
    obtain ⟨settings, rfl⟩ := initial
    exact fun _ _ found => by cases found
  | next earlier step ih =>
    exact fun id row found => Step.measured step (sound_invariant.of_run earlier)
      (knows_invariant.of_run earlier) ih found

theorem attempt_le_of_step {event : Event} {after : System} (step : Step s event after)
    {id : String} {row next : Row} (found : s.queue.store.submissions.get id = some row)
    (found' : after.queue.store.submissions.get id = some next) : row.attempt ≤ next.attempt := by
  rcases Step.performs step with same | ⟨op, _, same⟩
  · rw [same, found] at found'
    cases found'
    exact Nat.le_refl _
  · rw [same] at found'
    exact attempt_le found found'

/-- **From any state of a run to the last one** the attempts grow, and a row that keeps its attempt
goes forward. -/
theorem onward_of_run (run : system.Run steps s) {taken : Transition System Event}
    (member : taken ∈ steps) {id : String} {row : Row}
    (found : taken.before.queue.store.submissions.get id = some row) :
    ∃ next, s.queue.store.submissions.get id = some next ∧ row.attempt ≤ next.attempt ∧
      (next.attempt = row.attempt → Onward row next) := by
  induction run with
  | start _ => cases member
  | @next steps before after label earlier step ih =>
    have paced := paced_of_run earlier
    rcases List.mem_cons.mp member with rfl | member
    · obtain ⟨next, found', _⟩ := Step.row_cases step found
      exact ⟨next, found', attempt_le_of_step step found found',
        fun same => paced.onward step found found' same⟩
    · obtain ⟨middle, held, least, forward⟩ := ih member
      obtain ⟨next, found', _⟩ := Step.row_cases step held
      have later := attempt_le_of_step step held found'
      refine ⟨next, found', least.trans later, fun same => ?_⟩
      have first : middle.attempt = row.attempt := by omega
      exact (forward first).trans (paced.onward step held found' (by omega))

/-- What a run shows of the attempts of a submission. -/
structure Forward (steps : List (Transition System Event)) (s : System) : Prop where
  claimed : ∀ taken ∈ steps, ∀ id row next,
    taken.before.queue.store.submissions.get id = some row →
      taken.after.queue.store.submissions.get id = some next → next.attempt ≠ row.attempt →
        next.attempt = row.attempt + 1 ∧ next.status = .compiling ∧ next.testsDone = 0
  onward : ∀ taken ∈ steps, ∀ id row next,
    taken.before.queue.store.submissions.get id = some row →
      s.queue.store.submissions.get id = some next → next.attempt = row.attempt →
        row.testsDone ≤ next.testsDone ∧ ¬ (row.status = .running ∧ next.status = .compiling)
  measured : ∀ id row, s.queue.store.submissions.get id = some row → Measured s row
  finished : ∀ taken ∈ steps, ∀ slot world job problem result,
    taken.label = .store slot world →
      taken.before.workers slot = .storing job problem (.ok result) →
        (storeOp taken.before.settings world job problem (.ok result)).applied
          taken.before.queue.store = true →
            ∃ next, s.queue.store.submissions.get job.id = some next ∧ next.status = .done ∧
              next.attempt = job.attempt.toNat ∧ next.testsDone = result.tests.length ∧
                next.testResults = some (testsToJson result.tests) ∧
                  ∀ earlier ∈ steps, ∀ row,
                    earlier.before.queue.store.submissions.get job.id = some row →
                      row.attempt = next.attempt → row.testsDone ≤ next.testsDone

/-- **Within an attempt progress is monotone.** -/
theorem progress_monotone (run : system.Run steps s) : Forward steps s ∧
    ∀ (judge : Judge) (req : JudgeRequest) (lang : Language)
      (transcript : List (Exchange Call.Answer)) (result : JudgeResult),
      judge.languages.get req.language = some lang →
        Follows (judge.judge req true) transcript (.pure (.ok result)) →
          reports transcript = compileReports lang ++
            if result.verdict = .compileError then []
            else runningReports req.tests.length (result.tests.length + 1) := by
  have onward : ∀ taken ∈ steps, ∀ id row next,
      taken.before.queue.store.submissions.get id = some row →
        s.queue.store.submissions.get id = some next → next.attempt = row.attempt →
          Onward row next := by
    intro taken member id row next found found' same
    obtain ⟨next', held, _, forward⟩ := onward_of_run run member found
    cases found'.symm.trans held
    exact forward same
  refine ⟨⟨?_, ?_, measured_of_run run, ?_⟩, fun judge req lang transcript result known follows =>
    judge.reports_of_judge known follows⟩
  · intro taken member id row next found found' other
    obtain ⟨_, step⟩ := sound_invariant.of_transition run member
    obtain ⟨next', held, moves⟩ := Step.row_cases step found
    cases found'.symm.trans held
    rcases moves with rfl | ⟨op, _, moved⟩
    · exact absurd rfl other
    · cases moved with
      | claimed _ => exact ⟨rfl, rfl, rfl⟩
      | _ => exact absurd rfl other
  · intro taken member id row next found found' same
    obtain ⟨testsDone, place⟩ := onward taken member id row next found found' same
    refine ⟨testsDone, ?_⟩
    rintro ⟨running, compiling⟩
    rw [running, compiling] at place
    exact absurd place (by decide)
  · intro taken member slot world job problem result label here applied
    obtain ⟨row, own, settled⟩ := stored_settles run member label here applied
    have last := settled.1
    refine ⟨_, last, rfl, own, rfl, rfl, fun earlier before row' found' same => ?_⟩
    exact (onward earlier before job.id row' _ found' last same.symm).testsDone

end Runs

end Server

/-! ### Two samples -/

set_option maxRecDepth 10000 in
/-- A submission that is judged. -/
theorem progress_monotone_sample : letI := plainHost
    ∃ steps s, system.Run steps s ∧
      (s.queue.store.submissions.get "s1").map (fun row => (row.status, row.testsDone)) =
        some (.done, 1) ∧ Forward steps s := by
  let host := plainHost
  have run := (run_started sampleSettings).next (Step.insert (worldAt 0) sampleSubmission)
  have run := run.next (Step.claim 0 (worldAt 0) rfl)
  have run := run.next (Step.begin 0 rfl rfl)
  have run := run.next (Step.call 0 rfl rfl (by exact .ok ()))
  have run := run.next (Step.call 0 rfl rfl (by exact .ok ()))
  have run := run.next (Step.call 0 rfl rfl (by exact ()))
  have run := run.next (Step.call 0 rfl rfl (by exact .ok ⟨.ok, utf8 "2\n", [], 10, 20, 3000⟩))
  have run := run.next (Step.call 0 rfl rfl (by exact ()))
  have run := run.next (Step.heartbeat 0 (worldAt 0) rfl rfl rfl rfl)
  have run := run.next (Step.beatFetch 0 (worldAt 0) rfl rfl)
  have run := run.next (Step.beatPublish 0 rfl rfl)
  have run := run.next (Step.heartbeat 0 (worldAt 0) rfl rfl rfl rfl)
  have run := run.next (Step.beatFetch 0 (worldAt 0) rfl rfl)
  have run := run.next (Step.beatPublish 0 rfl rfl)
  have run := run.next (Step.call 0 rfl rfl (by exact .ok ()))
  have run := run.next (Step.returned 0 rfl rfl rfl rfl)
  have run := run.next (Step.store 0 (worldAt 0) rfl rfl)
  exact ⟨_, _, run, rfl, (progress_monotone run).1⟩

/-- After a compile error no test is reported, not even that none is done. -/
theorem compile_error_reports : letI := plainHost
    ¬ ∀ (judge : Judge) (req : JudgeRequest) (lang : Language)
      (transcript : List (Exchange Call.Answer)) (result : JudgeResult),
      judge.languages.get req.language = some lang →
        Follows (judge.judge req true) transcript (.pure (.ok result)) →
          reports transcript = compileReports lang ++
            runningReports req.tests.length (result.tests.length + 1) := by
  let host := plainHost
  intro always
  have follows : ∃ source contents spec stdin result, result.tests = [] ∧
      Follows (sampleJudge.judge (sampleRequest "rust" "2\n") true)
        [⟨.acquire, .ok ()⟩, ⟨.writeFile source contents, .ok ()⟩, ⟨.notify .compiling, ()⟩,
          ⟨.exec spec stdin, .ok ⟨.nonZeroExit 1, [], [], 10, 20, 3000⟩⟩, ⟨.release, .ok ()⟩]
        (.pure (.ok result)) :=
    ⟨_, _, _, _, _, rfl, .call (.call (.call (.call (.call (.refl _)))))⟩
  obtain ⟨_, _, _, _, result, none, follows⟩ := follows
  have claimed := always sampleJudge (sampleRequest "rust" "2\n") rust _ result rfl follows
  rw [none] at claimed
  have lengths : 1 = 2 := congrArg List.length claimed
  cases lengths

end Codexec.Server
