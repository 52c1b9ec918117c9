/-
**Workers and the rows of their jobs.**

`Performs` names the call on the store in every action and `Moves` what the action does to the worker,
so that what happens to a row is read off `RowStep`. A worker judges, or has judged, with what the
process has loaded, and the events that its heartbeat has not recorded yet are in order and no further
than the run (`Phase.Knows`).
-/

import Codexec.Server.Refine
import Codexec.Server.Live

namespace Codexec.Server

open Codexec Codexec.Library Machine Program

/-- **A result that is stored** rewrites the row of its token. -/
theorem finish_written {store : Store} {world : World} {token : Token}
    {problemVersion version : String} {result : JudgeResult}
    (applied : (Op.finish world token problemVersion version result).applied store = true) :
    ∃ row, store.submissions.get token.id = some row ∧ row.attempt = token.attempt.toNat ∧
      (Op.finish world token problemVersion version result).after store =
        store.set token.id (finished world problemVersion version result) := by
  simp only [Op.applied, Store.finish] at applied
  simp only [Op.after, Store.finish]
  rcases store.execute_owned_cases world token.id token.attempt (· != .done)
    (finished world problemVersion version result) (· == 1) with
    ⟨e, failed⟩ | ⟨row, found, own, _, done⟩ | ⟨_, passed⟩
  · rw [failed] at applied
    cases applied
  · exact ⟨row, found, own, by rw [done]⟩
  · rw [passed] at applied
    cases applied

section Server

variable [Host]

/-! ### The call of an action -/

/-- The worker that acts. -/
def Event.worker : Event → Option Nat
  | .claim slot _ => some slot
  | .abandon slot _ => some slot
  | .begin slot => some slot
  | .call slot => some slot
  | .heartbeat slot _ => some slot
  | .beatFetch slot _ => some slot
  | .beatPublish slot => some slot
  | .returned slot => some slot
  | .store slot _ => some slot
  | .report slot _ => some slot
  | .publish slot => some slot
  | _ => none

/-- The call on the store in an action. -/
inductive Performs (s : System) : Event → Op → Prop
  | insert (world : World) (new : NewSubmission) :
      Performs s (.insert world new) (.insert world new)
  | claim {slot : Nat} {world : World} (idle : s.workers slot = .idle) :
      Performs s (.claim slot world) (.claimNext world s.settings.leaseMs)
  | abandon {slot : Nat} {world : World} {job : Job} (here : s.workers slot = .claimed job)
      (missing : s.settings.problems.get job.problem = none) :
      Performs s (.abandon slot world)
        (.failAttempt world job.token 0 "problem no longer exists")
  | heartbeat {slot : Nat} {world : World} {run : Judging} {event : Progress}
      {later : List Progress} (here : s.workers slot = .judging run)
      (received : run.channel = event :: later) :
      Performs s (.heartbeat slot world) (.progress world run.job.token (Judging.recorded event).1
        (Judging.recorded event).2.1 (Judging.recorded event).2.2 s.settings.leaseMs)
  | store {slot : Nat} {world : World} {job : Job} {problem : Problem}
      {outcome : Except JudgeError JudgeResult}
      (here : s.workers slot = .storing job problem outcome) :
      Performs s (.store slot world) (storeOp s.settings world job problem outcome)
  | sweep (world : World) : Performs s (.sweep world) (.sweep world s.settings.maxAttempts)
  | restart (settings : Settings) (world : World) :
      Performs s (.restart settings world) (.requeueInflight world)

namespace Performs

variable {s : System} {event : Event} {world : World} {token : Token}

/-- Only a heartbeat reports progress. -/
theorem of_progress {status : Status} {testsDone testsTotal : Nat} {leaseMs : Int64}
    (performs : Performs s event (.progress world token status testsDone testsTotal leaseMs)) :
    ∃ slot run report later, event = .heartbeat slot world ∧ s.workers slot = .judging run ∧
      run.channel = report :: later ∧ token = run.job.token ∧
        (status, testsDone, testsTotal) = Judging.recorded report := by
  generalize called : Op.progress world token status testsDone testsTotal leaseMs = op at performs
  cases performs with
  | heartbeat here received =>
    cases called
    exact ⟨_, _, _, _, rfl, here, received, rfl, rfl⟩
  | @store _ _ job problem outcome _ =>
    unfold storeOp at called
    split at called <;> cases called
  | _ => cases called

/-- Only a worker that has judged stores a result. -/
theorem of_finish {problemVersion version : String} {result : JudgeResult}
    (performs : Performs s event (.finish world token problemVersion version result)) :
    ∃ slot job problem, event = .store slot world ∧
      s.workers slot = .storing job problem (.ok result) ∧ token = job.token ∧
        problemVersion = problem.version := by
  generalize called : Op.finish world token problemVersion version result = op at performs
  cases performs with
  | @store _ _ job problem outcome here =>
    cases outcome with
    | ok result' =>
      cases called
      exact ⟨_, _, _, rfl, here, rfl, rfl⟩
    | error e => cases e <;> cases called
  | _ => cases called

/-- **A worker gives an attempt up** without a problem, without a language, or, up to the limit, for
an error of the sandbox. -/
theorem of_failAttempt {maxAttempts : UInt32} {error : String}
    (performs : Performs s event (.failAttempt world token maxAttempts error)) :
    ∃ slot job, token = job.token ∧
      (event = .abandon slot world ∧ s.workers slot = .claimed job ∧ maxAttempts = 0 ∧
          s.settings.problems.get job.problem = none ∨
        ∃ problem e, event = .store slot world ∧
          s.workers slot = .storing job problem (.error e) ∧
            ((∃ language, e = .unknownLanguage language ∧ maxAttempts = 0) ∨
              maxAttempts = s.settings.maxAttempts)) := by
  generalize called : Op.failAttempt world token maxAttempts error = op at performs
  cases performs with
  | abandon here missing =>
    cases called
    exact ⟨_, _, rfl, Or.inl ⟨rfl, here, rfl, missing⟩⟩
  | @store slot _ job problem outcome here =>
    cases outcome with
    | ok result => cases called
    | error e =>
      cases e with
      | unknownLanguage language =>
        cases called
        exact ⟨slot, job, rfl, Or.inr ⟨problem, _, rfl, here, Or.inl ⟨language, rfl, rfl⟩⟩⟩
      | sandbox e =>
        cases called
        exact ⟨slot, job, rfl, Or.inr ⟨problem, _, rfl, here, Or.inr rfl⟩⟩
  | _ => cases called

/-- Only the sweeper sweeps. -/
theorem of_sweep {maxAttempts : UInt32} (performs : Performs s event (.sweep world maxAttempts)) :
    maxAttempts = s.settings.maxAttempts := by
  generalize called : Op.sweep world maxAttempts = op at performs
  cases performs with
  | sweep _ =>
    cases called
    rfl
  | store _ => exact absurd called (storeOp_ne rfl)
  | _ => cases called

/-- Only a request inserts. -/
theorem of_insert {new : NewSubmission} (performs : Performs s event (.insert world new)) :
    event = .insert world new := by
  generalize called : Op.insert world new = op at performs
  cases performs with
  | insert _ _ =>
    cases called
    rfl
  | store _ => exact absurd called (storeOp_ne rfl)
  | _ => cases called

end Performs

theorem Performs.of_token {s : System} {event : Event} {op : Op} (performs : Performs s event op)
    {token : Token} (writes : op.token? = some token) : ∃ slot job,
      event.worker = some slot ∧ (s.workers slot).job? = some job ∧ job.token = token := by
  cases performs with
  | abandon here _ =>
    cases writes
    exact ⟨_, _, rfl, by rw [here]; rfl, rfl⟩
  | heartbeat here _ =>
    cases writes
    exact ⟨_, _, rfl, by rw [here]; rfl, rfl⟩
  | @store slot world job problem outcome here =>
    rw [storeOp_token] at writes
    cases writes
    exact ⟨slot, job, rfl, by rw [here]; rfl, rfl⟩
  | _ => cases writes

section Inversion

variable {s after : System} {event : Event}

/-- **An action makes its call on the store, or none.** -/
theorem Step.performs (step : Step s event after) : after.queue = s.queue ∨
    ∃ op, Performs s event op ∧ after.queue = s.queue.perform op := by
  cases step with
  | insert world new => exact Or.inr ⟨_, .insert world new, rfl⟩
  | claim slot world idle => exact Or.inr ⟨_, .claim idle, rfl⟩
  | abandon slot world here missing => exact Or.inr ⟨_, .abandon here missing, rfl⟩
  | heartbeat slot world here _ received writes =>
    subst writes
    exact Or.inr ⟨_, .heartbeat here received, rfl⟩
  | store slot world here writes =>
    subst writes
    exact Or.inr ⟨_, .store here, rfl⟩
  | sweep world _ => exact Or.inr ⟨_, .sweep world, rfl⟩
  | restart settings world _ => exact Or.inr ⟨_, .restart settings world, rfl⟩
  | _ => exact Or.inl rfl

/-- **What an action does to a row that exists.** -/
theorem Step.row_cases (step : Step s event after) {id : String} {row : Row}
    (found : s.queue.store.submissions.get id = some row) :
    ∃ next, after.queue.store.submissions.get id = some next ∧
      (next = row ∨ ∃ op, Performs s event op ∧ RowStep op row next) := by
  rcases Step.performs step with same | ⟨op, performs, same⟩
  · exact ⟨row, by rw [same]; exact found, Or.inl rfl⟩
  · obtain ⟨next, found', moved⟩ := op.row_cases found
    exact ⟨next, by rw [same]; exact found', Or.inr ⟨op, performs, moved⟩⟩

/-- **A row that did not exist was submitted.** -/
theorem Step.row_new (step : Step s event after) {id : String} {row : Row}
    (absent : s.queue.store.submissions.get id = none)
    (found : after.queue.store.submissions.get id = some row) :
    ∃ world new, event = .insert world new ∧ row = queuedRow world new := by
  rcases Step.performs step with same | ⟨op, performs, same⟩
  · rw [same, absent] at found
    cases found
  · rw [same] at found
    obtain ⟨world, new, rfl, _, rfl, _⟩ := Op.row_new absent found
    exact ⟨world, new, performs.of_insert, rfl⟩

end Inversion

/-! ### The worker of an action -/

/-- What a worker that acts goes on with, if it does not become idle. -/
inductive Moves (s : System) : Event → Phase → Phase → Prop
  | claimed {slot : Nat} {world : World} {job : Job}
      (claims : (s.queue.store.claimNext world s.settings.leaseMs).1 = .ok (some job)) :
      Moves s (.claim slot world) .idle (.claimed job)
  | begun {slot : Nat} {job : Job} {problem : Problem}
      (found : s.settings.problems.get job.problem = some problem) :
      Moves s (.begin slot) (.claimed job)
        (.judging (Judging.begin s.settings.judge job problem))
  | called {slot : Nat} {run : Judging} {request : Call}
      {next : Call.Answer request → JudgeM (Except JudgeError JudgeResult)}
      (calls : run.rest = .call request next) (answer : Call.Answer request) :
      Moves s (.call slot) (.judging run) (.judging (run.answered calls answer))
  | heard {slot : Nat} {world : World} {run : Judging} {event : Progress} {later : List Progress}
      (received : run.channel = event :: later) (beat : Beat) :
      Moves s (.heartbeat slot world) (.judging run)
        (.judging { run with channel := later, beat := beat })
  | fetched {slot : Nat} {world : World} {run : Judging} (beat : Beat) :
      Moves s (.beatFetch slot world) (.judging run) (.judging { run with beat := beat })
  | published {slot : Nat} {run : Judging} (beat : Beat) :
      Moves s (.beatPublish slot) (.judging run) (.judging { run with beat := beat })
  | returned {slot : Nat} {run : Judging} {outcome : Except JudgeError JudgeResult}
      (done : run.rest = .pure outcome) :
      Moves s (.returned slot) (.judging run) (.storing run.job run.problem outcome)
  | stored {slot : Nat} {world : World} {job : Job} {problem : Problem}
      {outcome : Except JudgeError JudgeResult} (wrote : Bool) :
      Moves s (.store slot world) (.storing job problem outcome) (.reporting job wrote)
  | reported {slot : Nat} {world : World} {job : Job} {wrote : Bool} (sub : Submission) :
      Moves s (.report slot world) (.reporting job wrote) (.publishing job wrote sub)

@[simp] theorem System.workers_setWorker (s : System) (slot : Nat) (phase : Phase) :
    (s.setWorker slot phase).workers slot = phase := Function.update_self _ _ _

/-- **Who does not act keeps its phase**, or the process has ended. -/
theorem Step.workers_other {s after : System} {event : Event} (step : Step s event after)
    {other : Nat} (rests : event.worker ≠ some other) :
    after.workers other = s.workers other ∨ after.workers other = .idle := by
  have kept {slot : Nat} {phase : Phase} (acts : event.worker = some slot) :
      Function.update s.workers slot phase other = s.workers other :=
    Function.update_of_ne (fun same => rests (by rw [acts, same])) _ _
  cases step with
  | insert _ _ => exact Or.inl rfl
  | sweep _ _ => exact Or.inl rfl
  | prune _ => exact Or.inl rfl
  | subscribe _ _ _ => exact Or.inl rfl
  | read _ _ _ _ => exact Or.inl rfl
  | poll _ _ => exact Or.inl rfl
  | hangUp _ => exact Or.inl rfl
  | restart _ _ _ => exact Or.inr rfl
  | _ => exact Or.inl (kept rfl)

/-- **What happens to the worker that acts.** -/
theorem Step.moves {s after : System} {event : Event} (step : Step s event after) {slot : Nat}
    (acts : event.worker = some slot) :
    after.workers slot = .idle ∨ Moves s event (s.workers slot) (after.workers slot) := by
  cases step with
  | claim own world idle =>
    cases acts
    rw [idle, System.workers_setWorker]
    cases claims : (s.queue.store.claimNext world s.settings.leaseMs).1 with
    | error e => exact Or.inl rfl
    | ok job =>
      cases job with
      | none => exact Or.inl rfl
      | some job => exact Or.inr (.claimed claims)
  | abandon own world here missing =>
    cases acts
    exact Or.inl (System.workers_setWorker _ _ _)
  | begin own here found =>
    cases acts
    rw [here, System.workers_setWorker]
    exact Or.inr (.begun found)
  | call own here calls answer =>
    cases acts
    rw [here, System.workers_setWorker]
    exact Or.inr (.called calls answer)
  | heartbeat own world here _ received _ =>
    cases acts
    rw [here, System.workers_setWorker]
    exact Or.inr (.heard received _)
  | beatFetch own world here _ =>
    cases acts
    rw [here, System.workers_setWorker]
    exact Or.inr (.fetched _)
  | beatPublish own here _ =>
    cases acts
    rw [here, System.workers_setWorker]
    exact Or.inr (.published _)
  | returned own here done _ _ =>
    cases acts
    rw [here, System.workers_setWorker]
    exact Or.inr (.returned done)
  | store own world here _ =>
    cases acts
    rw [here, System.workers_setWorker]
    exact Or.inr (.stored _)
  | @report own world job wrote here =>
    cases acts
    rw [here, System.workers_setWorker]
    cases s.queue.store.get world job.id with
    | error e => exact Or.inl rfl
    | ok sub =>
      cases sub with
      | none => exact Or.inl rfl
      | some sub => exact Or.inr (.reported sub)
  | publish own here =>
    cases acts
    exact Or.inl (System.workers_setWorker _ _ _)
  | _ => cases acts

/-- **One worker in one step**: it ends idle, or keeps its phase, or it is the one that acts; the
settings only change with the process. -/
theorem Step.worker_cases {s after : System} {event : Event} (step : Step s event after)
    (slot : Nat) : after.workers slot = .idle ∨ after.settings = s.settings ∧
      (event.worker ≠ some slot ∧ after.workers slot = s.workers slot ∨
        event.worker = some slot ∧ Moves s event (s.workers slot) (after.workers slot)) := by
  by_cases ended : after.settings = s.settings
  · by_cases acts : event.worker = some slot
    · rcases Step.moves step acts with idle | moves
      · exact Or.inl idle
      · exact Or.inr ⟨ended, Or.inr ⟨acts, moves⟩⟩
    · rcases Step.workers_other step acts with same | idle
      · exact Or.inr ⟨ended, Or.inl ⟨acts, same⟩⟩
      · exact Or.inl idle
  · left
    cases step with
    | restart _ _ _ => rfl
    | _ => exact absurd rfl ended

/-- **A worker keeps its job, gives it up, or claims one.** -/
theorem Step.job {s after : System} {event : Event} (step : Step s event after) {slot : Nat}
    {job : Job} (has : (after.workers slot).job? = some job) :
    (s.workers slot).job? = some job ∨ ∃ world, event = .claim slot world ∧
      (s.queue.store.claimNext world s.settings.leaseMs).1 = .ok (some job) := by
  rcases Step.worker_cases step slot with idle | ⟨_, ⟨_, same⟩ | ⟨acts, moves⟩⟩
  · rw [idle] at has
    cases has
  · rw [same] at has
    exact Or.inl has
  · revert has
    generalize s.workers slot = before, after.workers slot = phase at moves
    intro has
    cases moves with
    | claimed claims =>
      cases acts
      cases has
      exact Or.inr ⟨_, rfl, claims⟩
    | _ => exact Or.inl has

omit [Host] in
/-- A job that is claimed is that of the row, with the number of the new attempt. -/
theorem row_of_claim {state : Queue} {world : World} {leaseMs : Int64} {job : Job}
    (claims : (state.store.claimNext world leaseMs).1 = .ok (some job)) :
    ∃ row, state.store.submissions.get job.id = some row ∧
      (state.perform (.claimNext world leaseMs)).store.submissions.get job.id =
        some ((claimed world leaseMs).set row) := by
  obtain ⟨row, source, held, -, -, rfl, -, found⟩ := Store.claimNext_job claims
  exact ⟨row, held, found⟩

/-- The store knows the job of a worker. -/
theorem Sound.holds {s : System} (sound : Sound s) {slot : Nat} {job : Job}
    (has : (s.workers slot).job? = some job) : Holds s.queue job := by
  have ok := sound.workers slot
  cases phase : s.workers slot with
  | idle =>
    rw [phase] at has
    cases has
  | judging run =>
    rw [phase] at has ok
    cases has
    exact ok.1
  | storing job' problem outcome =>
    rw [phase] at has ok
    cases has
    exact ok.1
  | _ =>
    rw [phase] at has ok
    cases has
    exact ok

/-- The row of a job names its problem. -/
theorem Sound.problem {s : System} (sound : Sound s) {slot : Nat} {job : Job} {row : Row}
    (has : (s.workers slot).job? = some job)
    (found : s.queue.store.submissions.get job.id = some row) : row.problem = job.problem := by
  obtain ⟨row', stored, problem, _⟩ := (sound.holds has).row
  cases found.symm.trans stored
  exact problem

/-! ### What a worker judges with -/

/-- The events that wait are in order, and the run is at least as far as they say. -/
structure Judging.Ordered (run : Judging) : Prop where
  stage : run.stage.Fits run.problem.tests.length
  fits : ∀ event ∈ run.channel, event.Fits run.problem.tests.length
  reach : ∀ event ∈ run.channel, event.reach ≤ run.stage.reach
  sorted : run.channel.Pairwise fun event later => event.reach ≤ later.reach

/-- The worker judges, or has judged, with what the process has loaded. -/
def Phase.Knows (settings : Settings) : Phase → Prop
  | .judging run => run.Current settings ∧ run.Ordered
  | .storing job problem outcome => settings.problems.get job.problem = some problem ∧
      ∃ transcript, Follows (settings.judge.judge (requestFor job problem) true) transcript
        (.pure outcome)
  | _ => True

section Knows

variable {settings : Settings} {run : Judging}

theorem Judging.ordered_begin (judge : Judge) (job : Job) (problem : Problem) :
    (Judging.begin judge job problem).Ordered where
  stage := trivial
  fits _ inside := absurd inside List.not_mem_nil
  reach _ inside := absurd inside List.not_mem_nil
  sorted := List.Pairwise.nil

/-- The next call of a run is one that its monitor permits. -/
theorem Judging.permitted {request : Call}
    {next : Call.Answer request → JudgeM (Except JudgeError JudgeResult)}
    (calls : run.rest = .call request next) : ∃ lang,
      run.judge.permits lang (requestFor run.job run.problem) run.stage request := by
  rcases run.obeys with ⟨e, stopped⟩ | ⟨lang, _, obeys⟩
  · rw [calls] at stopped
    cases stopped
  · rw [calls] at obeys
    exact ⟨lang, obeys.of_call.1⟩

/-- A call adds at most one event, and that one is further than all others. -/
theorem Judging.Ordered.answered (ordered : run.Ordered) {request : Call}
    {next : Call.Answer request → JudgeM (Except JudgeError JudgeResult)}
    (calls : run.rest = .call request next) (answer : Call.Answer request) :
    (run.answered calls answer).Ordered ∧
      run.stage.reach ≤ (run.answered calls answer).stage.reach ∧
      ∀ event ∈ sent request, run.stage.reach ≤ event.reach := by
  obtain ⟨lang, permitted⟩ := Judging.permitted calls
  obtain ⟨further, fits⟩ := Judge.reach_step permitted ordered.stage answer
  have stage := Judging.stage_answered calls answer
  rw [← stage] at further fits
  have new : ∀ event ∈ sent request, run.stage.reach ≤ event.reach ∧
      event.Fits run.problem.tests.length ∧
        event.reach ≤ (run.answered calls answer).stage.reach := by
    intro event inside
    cases request with
    | notify event' =>
      rw [List.mem_singleton.mp inside]
      obtain ⟨least, within⟩ := Judge.permits_notify permitted ordered.stage
      refine ⟨least, within, ?_⟩
      rw [stage]
      exact ge_of_eq Judge.reach_notify
    | _ => cases inside
  refine ⟨⟨fits, ?_, ?_, ?_⟩, further, fun event inside => (new event inside).1⟩
  · intro event inside
    rcases List.mem_append.mp inside with old | inside
    · exact ordered.fits event old
    · exact (new event inside).2.1
  · intro event inside
    rcases List.mem_append.mp inside with old | inside
    · exact (ordered.reach event old).trans further
    · exact (new event inside).2.2
  · refine List.pairwise_append.mpr ⟨ordered.sorted, ?_, ?_⟩
    · cases request with
      | notify event => exact List.pairwise_singleton _ _
      | _ => exact List.Pairwise.nil
    · intro event old event' inside
      exact (ordered.reach event old).trans (new event' inside).1

/-- The heartbeat receives the first event. -/
theorem Judging.Ordered.received (ordered : run.Ordered) {event : Progress} {later : List Progress}
    (received : run.channel = event :: later) (beat : Beat) :
    ({ run with channel := later, beat := beat } : Judging).Ordered where
  stage := ordered.stage
  fits event' inside := ordered.fits event' (by rw [received]; exact List.mem_cons_of_mem _ inside)
  reach event' inside :=
    ordered.reach event' (by rw [received]; exact List.mem_cons_of_mem _ inside)
  sorted := by
    have sorted := ordered.sorted
    rw [received] at sorted
    exact (List.pairwise_cons.mp sorted).2

theorem Judging.Ordered.beats (ordered : run.Ordered) (beat : Beat) :
    ({ run with beat := beat } : Judging).Ordered :=
  ⟨ordered.stage, ordered.fits, ordered.reach, ordered.sorted⟩

/-- **Every worker judges with what the process has loaded**, and reports in order. -/
theorem knows_invariant : system.Invariant fun s => ∀ slot, (s.workers slot).Knows s.settings where
  start := by
    rintro _ ⟨settings, rfl⟩ slot
    trivial
  step := by
    intro s event after knows step slot
    have known := knows slot
    rcases Step.worker_cases step slot with idle | ⟨settings, ⟨_, same⟩ | ⟨_, moves⟩⟩
    · rw [idle]
      trivial
    · rw [settings, same]
      exact known
    · rw [settings]
      revert known
      generalize s.workers slot = before, after.workers slot = phase at moves
      intro known
      cases moves with
      | claimed _ => trivial
      | begun found => exact ⟨⟨rfl, found⟩, Judging.ordered_begin _ _ _⟩
      | called calls answer => exact ⟨known.1, (known.2.answered calls answer).1⟩
      | heard received beat => exact ⟨known.1, known.2.received received beat⟩
      | fetched beat => exact ⟨known.1, known.2.beats beat⟩
      | published beat => exact ⟨known.1, known.2.beats beat⟩
      | @returned _ run outcome done =>
        obtain ⟨⟨engine, found⟩, _⟩ := known
        have follows := run.follows
        rw [engine, done] at follows
        exact ⟨found, run.transcript, follows⟩
      | stored _ => trivial
      | reported _ => trivial

/-- **What a worker is about to store** is the outcome of its request. -/
theorem Phase.Knows.result {job : Job} {problem : Problem} {result : JudgeResult}
    (knows : (Phase.storing job problem (.ok result)).Knows settings) :
    settings.problems.get job.problem = some problem ∧ result.verdict ≠ .internalError ∧
      result.testsTotal = problem.tests.length ∧ result.tests.length ≤ problem.tests.length := by
  obtain ⟨found, transcript, follows⟩ := knows
  obtain ⟨lang, known, executed⟩ := Judge.judge_executes follows
  exact ⟨found, executed.verdict_ne_internalError, executed.testsTotal,
    Judge.results_le _ known follows⟩

theorem Phase.Knows.unknown {job : Job} {problem : Problem} {language : String}
    (knows : (Phase.storing job problem (.error (.unknownLanguage language))).Knows settings) :
    settings.judge.languages.get job.language = none := by
  obtain ⟨_, transcript, follows⟩ := knows
  exact Judge.judge_unknownLanguage follows

end Knows

/-! ### Runs -/

section Runs

variable {steps : List (Transition System Event)} {s : System} {taken : Transition System Event}

/-- A store that settles a submission has done it for good. -/
theorem settled_of_run (run : system.Run steps s) (member : taken ∈ steps) {id : String} {row : Row}
    (settled : Settled id row taken.after.queue) : Settled id row s.queue := by
  have stable : ∀ before event after, Sound before → system.step before event after →
      Settled id row before.queue → Settled id row after.queue := by
    intro before event after _ step reached
    rcases Step.performs step with same | ⟨op, _, same⟩
    · rw [same]
      exact reached
    · rw [same]
      exact reached.perform op
  exact run.persists sound_invariant stable member settled

/-- **A result that is stored stays**: it settles the row of the token. -/
theorem stored_settles (run : system.Run steps s) (member : taken ∈ steps) {slot : Nat}
    {world : World} {job : Job} {problem : Problem} {result : JudgeResult}
    (label : taken.label = .store slot world)
    (here : taken.before.workers slot = .storing job problem (.ok result))
    (applied : (storeOp taken.before.settings world job problem (.ok result)).applied
      taken.before.queue.store = true) :
    ∃ row, row.attempt = job.attempt.toNat ∧
      Settled job.id ((finished world problem.version judgeVersion result).set row) s.queue := by
  obtain ⟨_, step⟩ := sound_invariant.of_transition run member
  obtain ⟨row, found, own, written⟩ := finish_written applied
  refine ⟨row, own, settled_of_run run member ⟨?_, rfl⟩⟩
  rw [label] at step
  generalize taken.before = before, taken.after = after at *
  cases step with
  | store _ _ here' writes =>
    cases here.symm.trans here'
    subst writes
    refine (congrArg (fun store : Store => store.submissions.get job.id) written).trans ?_
    rw [Store.get_set]
    exact (if_pos rfl).trans (congrArg (Option.map _) found)

end Runs

end Server

end Codexec.Server
