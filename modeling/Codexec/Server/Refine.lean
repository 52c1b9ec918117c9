/-
**The server uses the queue as the queue expects.**

`Sound` says what the server keeps of a job: the token is issued, the row and the source are those of
the job, the problem was loaded, and a result that is about to be stored was returned by `judge`.
Hence every action of the server is a permitted call of the queue or none (`system_refines`), and all
invariants of the queue hold of the server.
-/

import Codexec.Server.Shape
import Codexec.Server.Fencing
import Codexec.Server.System

namespace Codexec.Server

open Codexec Codexec.Library Machine Program

/-! ### Jobs -/

/-- The store knows the job. -/
structure Holds (state : Queue) (job : Job) : Prop where
  issued : job.token ∈ state.issued
  row : ∃ row, state.store.submissions.get job.id = some row ∧ row.problem = job.problem ∧
    row.language = job.language
  source : state.store.sources.get job.id = some ⟨job.id, job.source⟩

/-- No operation changes what was submitted. -/
theorem RowStep.submitted {op : Op} {row next : Row} (step : RowStep op row next) :
    next.problem = row.problem ∧ next.language = row.language := by
  cases step <;> exact ⟨rfl, rfl⟩

theorem sources_perform {state : Queue} {id : String} {source : Source}
    (stored : state.store.sources.get id = some source) (op : Op) :
    (state.perform op).store.sources.get id = some source := by
  show (op.after state.store).sources.get id = some source
  rcases op.sources_cases state.store with same | ⟨world, new, rfl, inserted⟩
  · rw [same, stored]
  · have other : world.newId ≠ id := by
      intro key
      rw [← key, inserted.unsourced] at stored
      cases stored
    rw [inserted.source, if_neg other, stored]

theorem Holds.perform {state : Queue} {job : Job} (holds : Holds state job) (op : Op) :
    Holds (state.perform op) job := by
  obtain ⟨row, found, problem, language⟩ := holds.row
  obtain ⟨next, found', moved⟩ := op.row_cases found
  refine ⟨List.mem_append_right _ holds.issued, ⟨next, found', ?_, ?_⟩,
    sources_perform holds.source op⟩
  · rw [moved.submitted.1, problem]
  · rw [moved.submitted.2, language]

/-- **A claimed job is what was submitted.** -/
theorem holds_of_claim {state : Queue} {world : World} {leaseMs : Int64} {job : Job}
    (claims : (state.store.claimNext world leaseMs).1 = .ok (some job)) :
    Holds (state.perform (.claimNext world leaseMs)) job := by
  obtain ⟨row, source, -, -, stored, rfl, after, found⟩ := Store.claimNext_job claims
  refine ⟨?_, ⟨(claimed world leaseMs).set row, found, rfl, rfl⟩, ?_⟩
  · apply List.mem_append_left
    rw [Op.issues, claims]
    exact List.mem_singleton_self _
  · show (state.store.claimNext world leaseMs).2.sources.get row.id = _
    rw [after, Store.sources_set, stored]
    have id : source.submissionId = row.id := Table.get_key stored
    cases source
    cases id
    rfl

section Server

variable [Host]

/-! ### Soundness -/

/-- The problem of a job, and the judge, were loaded together. -/
def Loaded (s : System) (judge : Judge) (job : Job) (problem : Problem) : Prop :=
  ∃ settings ∈ s.loaded, settings.judge = judge ∧
    settings.problems.get job.problem = some problem

/-- A result that `judge` returned for the job. -/
def Returns (s : System) (job : Job) (problem : Problem) (result : JudgeResult) : Prop :=
  ∃ j ∈ s.judged, j.job = job ∧ j.problem = problem ∧ j.result = result

def PhaseOk (s : System) : Phase → Prop
  | .idle => True
  | .claimed job => Holds s.queue job
  | .judging run => Holds s.queue run.job ∧ Loaded s run.judge run.job run.problem
  | .storing job problem outcome =>
    Holds s.queue job ∧ ∀ result, outcome = .ok result → Returns s job problem result
  | .reporting job _ => Holds s.queue job
  | .publishing job _ _ => Holds s.queue job

structure Sound (s : System) : Prop where
  workers : ∀ slot, PhaseOk s (s.workers slot)
  current : s.settings ∈ s.loaded
  judged : ∀ j ∈ s.judged, Holds s.queue j.job ∧ Loaded s j.judge j.job j.problem

/-- What only grows. -/
structure Grows (s after : System) : Prop where
  holds : ∀ job, Holds s.queue job → Holds after.queue job
  loaded : ∀ settings ∈ s.loaded, settings ∈ after.loaded
  judged : ∀ j ∈ s.judged, j ∈ after.judged

namespace Grows

variable {s after : System}

theorem of_same (queue : after.queue = s.queue) (loaded : after.loaded = s.loaded)
    (judged : after.judged = s.judged) : Grows s after :=
  ⟨fun job holds => by rw [queue]; exact holds, fun settings inside => by rw [loaded]; exact inside,
    fun j inside => by rw [judged]; exact inside⟩

theorem of_perform {op : Op} (queue : after.queue = s.queue.perform op)
    (loaded : after.loaded = s.loaded) (judged : after.judged = s.judged) : Grows s after :=
  ⟨fun job holds => by rw [queue]; exact holds.perform op,
    fun settings inside => by rw [loaded]; exact inside,
    fun j inside => by rw [judged]; exact inside⟩

theorem loads (grows : Grows s after) {judge : Judge} {job : Job} {problem : Problem}
    (loaded : Loaded s judge job problem) : Loaded after judge job problem := by
  obtain ⟨settings, inside, same, found⟩ := loaded
  exact ⟨settings, grows.loaded settings inside, same, found⟩

theorem returns (grows : Grows s after) {job : Job} {problem : Problem} {result : JudgeResult}
    (returned : Returns s job problem result) : Returns after job problem result := by
  obtain ⟨j, inside, same⟩ := returned
  exact ⟨j, grows.judged j inside, same⟩

theorem phaseOk (grows : Grows s after) {phase : Phase} (ok : PhaseOk s phase) :
    PhaseOk after phase := by
  cases phase with
  | idle => trivial
  | claimed job => exact grows.holds job ok
  | judging run => exact ⟨grows.holds _ ok.1, grows.loads ok.2⟩
  | storing job problem outcome =>
    exact ⟨grows.holds _ ok.1, fun result same => grows.returns (ok.2 result same)⟩
  | reporting job wrote => exact grows.holds job ok
  | publishing job wrote sub => exact grows.holds job ok

end Grows

theorem Step.grows {s after : System} {event : Event} (step : Step s event after) :
    Grows s after := by
  cases step with
  | insert _ _ => exact .of_perform rfl rfl rfl
  | claim _ _ _ => exact .of_perform rfl rfl rfl
  | abandon _ _ _ _ => exact .of_perform rfl rfl rfl
  | heartbeat _ _ _ _ _ _ => exact .of_perform rfl rfl rfl
  | store _ _ _ _ => exact .of_perform rfl rfl rfl
  | sweep _ _ => exact .of_perform rfl rfl rfl
  | returned _ _ _ _ _ => exact ⟨fun _ holds => holds, fun _ inside => inside,
      fun _ inside => List.mem_append_right _ inside⟩
  | restart _ _ _ => exact ⟨fun _ holds => holds.perform _, fun _ inside => List.mem_cons_of_mem _ inside,
      fun _ inside => inside⟩
  | _ => exact .of_same rfl rfl rfl

/-- One worker moves on. -/
theorem all_update {holds : Phase → Prop} {workers : Nat → Phase} {slot : Nat} {phase : Phase}
    (all : ∀ slot, holds (workers slot)) (new : holds phase) (other : Nat) :
    holds (Function.update workers slot phase other) := by
  by_cases same : other = slot
  · rw [same, Function.update_self]
    exact new
  · rw [Function.update_of_ne same]
    exact all other

/-! ### What judging returned -/

theorem of_mem_judgements {run : Judging} {j : Judgement} (inside : j ∈ judgements run) :
    j.job = run.job ∧ j.judge = run.judge ∧ j.problem = run.problem ∧
      j.transcript = run.transcript := by
  unfold judgements at inside
  split at inside
  · rw [List.mem_singleton] at inside
    rw [inside]
    exact ⟨rfl, rfl, rfl, rfl⟩
  · cases inside

theorem mem_judgements {run : Judging} {result : JudgeResult}
    (returns : run.rest = .pure (.ok result)) :
    ∃ j ∈ judgements run, j.job = run.job ∧ j.problem = run.problem ∧ j.result = result := by
  unfold judgements
  split
  · rename_i other returns'
    rw [returns] at returns'
    cases returns'
    exact ⟨_, List.mem_singleton_self _, rfl, rfl, rfl⟩
  · rename_i other
    exact absurd returns (other result)

theorem Sound.judging {s : System} (sound : Sound s) {slot : Nat} {run : Judging}
    (here : s.workers slot = .judging run) :
    Holds s.queue run.job ∧ Loaded s run.judge run.job run.problem := by
  have ok := sound.workers slot
  rw [here] at ok
  exact ok

theorem Sound.job {s : System} (sound : Sound s) {slot : Nat} {phase : Phase}
    (here : s.workers slot = phase) : PhaseOk s phase := by
  rw [← here]
  exact sound.workers slot

/-- **The server keeps what it knows of every job.** -/
theorem sound_invariant : system.Invariant Sound where
  start := by
    rintro _ ⟨settings, rfl⟩
    exact ⟨fun _ => trivial, List.mem_singleton_self _, fun _ inside => absurd inside List.not_mem_nil⟩
  step := by
    intro s event after sound step
    have grows : Grows s after := Step.grows step
    have old : ∀ slot, PhaseOk after (s.workers slot) := fun slot => grows.phaseOk (sound.workers slot)
    have current : s.settings ∈ after.loaded := grows.loaded _ sound.current
    have judged : ∀ j ∈ s.judged, Holds after.queue j.job ∧ Loaded after j.judge j.job j.problem :=
      fun j inside => ⟨grows.holds _ (sound.judged j inside).1, grows.loads (sound.judged j inside).2⟩
    cases step with
    | insert _ _ => exact ⟨old, current, judged⟩
    | claim slot world idle =>
      refine ⟨all_update old ?_, current, judged⟩
      cases claims : (s.queue.store.claimNext world s.settings.leaseMs).1 with
      | error e => trivial
      | ok job =>
        cases job with
        | none => trivial
        | some job => exact holds_of_claim claims
    | abandon _ _ _ _ => exact ⟨all_update old trivial, current, judged⟩
    | begin _ here found =>
      have holds : Holds s.queue _ := sound.job here
      exact ⟨all_update old ⟨holds, s.settings, sound.current, rfl, found⟩, current, judged⟩
    | call _ here calls answer =>
      have ok := sound.judging here
      exact ⟨all_update old ⟨ok.1, ok.2⟩, current, judged⟩
    | heartbeat _ _ here _ _ _ =>
      have ok := sound.judging here
      exact ⟨all_update old ⟨grows.holds _ ok.1, ok.2⟩, current, judged⟩
    | beatFetch _ _ here _ =>
      have ok := sound.judging here
      exact ⟨all_update old ⟨ok.1, ok.2⟩, current, judged⟩
    | beatPublish _ here _ =>
      have ok := sound.judging here
      exact ⟨all_update old ⟨ok.1, ok.2⟩, current, judged⟩
    | returned slot here done drained resting =>
      have ok := sound.judging here
      refine ⟨all_update old ⟨ok.1, fun result same => ?_⟩, current, ?_⟩
      · rw [same] at done
        obtain ⟨j, inside, facts⟩ := mem_judgements done
        exact ⟨j, List.mem_append_left _ inside, facts⟩
      · intro j inside
        rcases List.mem_append.mp inside with new | inside
        · obtain ⟨job, judge, problem, _⟩ := of_mem_judgements new
          rw [job, judge, problem]
          exact ⟨ok.1, grows.loads ok.2⟩
        · exact judged j inside
    | store _ _ here _ =>
      have ok : PhaseOk s _ := sound.job here
      exact ⟨all_update old (grows.holds _ ok.1), current, judged⟩
    | @report slot world job wrote here =>
      have ok : PhaseOk s _ := sound.job here
      refine ⟨all_update old ?_, current, judged⟩
      cases s.queue.store.get world job.id with
      | error e => trivial
      | ok sub =>
        cases sub with
        | none => trivial
        | some sub => exact ok
    | publish _ _ => exact ⟨all_update old trivial, current, judged⟩
    | sweep _ _ => exact ⟨old, current, judged⟩
    | prune _ => exact ⟨old, current, judged⟩
    | subscribe _ _ _ => exact ⟨old, current, judged⟩
    | read _ _ _ _ => exact ⟨old, current, judged⟩
    | poll _ _ => exact ⟨old, current, judged⟩
    | hangUp _ => exact ⟨old, current, judged⟩
    | restart _ _ _ => exact ⟨fun _ => trivial, List.mem_cons_self, judged⟩

/-! ### Refinement -/

/-- A worker writes with its own token. -/
theorem storeOp_token (settings : Settings) (world : World) (job : Job) (problem : Problem)
    (outcome : Except JudgeError JudgeResult) :
    (storeOp settings world job problem outcome).token? = some job.token := by
  unfold storeOp
  split <;> rfl

/-- A call without a token is not a worker's. -/
theorem storeOp_ne {op : Op} (tokenless : op.token? = none) {settings : Settings} {world : World}
    {job : Job} {problem : Problem} {outcome : Except JudgeError JudgeResult} :
    op ≠ storeOp settings world job problem outcome := by
  rintro rfl
  rw [storeOp_token] at tokenless
  cases tokenless

/-- What workers store was returned to them, for the job they store it under. -/
def Returned (s : System) : Op → Prop
  | .finish _ token problemVersion version result => ∃ j ∈ s.judged, token = j.job.token ∧
      problemVersion = j.problem.version ∧ version = judgeVersion ∧ result = j.result
  | _ => True

/-- **Every action is a permitted call of the queue, or none.** -/
theorem Step.calls {s after : System} {event : Event} (sound : Sound s)
    (step : Step s event after) : after.queue = s.queue ∨ ∃ op, after.queue = s.queue.perform op ∧
      op.Permitted s.queue.issued ∧ Returned s op := by
  cases step with
  | insert _ _ => exact Or.inr ⟨_, rfl, trivial, trivial⟩
  | claim _ _ _ => exact Or.inr ⟨_, rfl, trivial, trivial⟩
  | abandon _ _ here _ =>
    have holds : Holds s.queue _ := sound.job here
    exact Or.inr ⟨_, rfl, holds.issued, trivial⟩
  | @heartbeat slot world run event later op here _ _ writes =>
    have flying : (Judging.recorded event).1.inFlight = true := by cases event <;> rfl
    subst writes
    exact Or.inr ⟨_, rfl, ⟨(sound.judging here).1.issued, flying⟩, trivial⟩
  | @store slot world job problem outcome op here writes =>
    have ok : PhaseOk s (.storing job problem outcome) := sound.job here
    refine Or.inr ⟨_, rfl, ?_⟩
    rw [writes]
    cases outcome with
    | ok result =>
      obtain ⟨j, inside, rfl, rfl, rfl⟩ := ok.2 result rfl
      exact ⟨ok.1.issued, j, inside, rfl, rfl, rfl, rfl⟩
    | error e => cases e <;> exact ⟨ok.1.issued, trivial⟩
  | sweep _ _ => exact Or.inr ⟨_, rfl, trivial, trivial⟩
  | restart _ _ _ => exact Or.inr ⟨_, rfl, trivial, trivial⟩
  | _ => exact Or.inl rfl

theorem Returned.byWorkers {s : System} {op : Op} (returned : Returned s op) :
    byWorkers s.queue op := by
  cases op with
  | finish world token problemVersion version result =>
    obtain ⟨j, _, _, _, _, rfl⟩ := returned
    exact ⟨j.judge, _, true, j.transcript, j.follows⟩
  | _ => trivial

theorem system_refines :
    Refinement system (queue.guarded byWorkers) System.queue Sound where
  start := by
    rintro _ ⟨settings, rfl⟩
    rfl
  step := by
    intro s event after sound step
    rcases Step.calls sound step with same | ⟨op, same, permitted, called⟩
    · exact Or.inl same
    · exact Or.inr ⟨op, called.byWorkers, permitted, same⟩

section Reachable

variable {s : System} (reachable : system.Reachable s)

include reachable

theorem reachable_shape {id : String} {row : Row}
    (found : s.queue.store.submissions.get id = some row) : RowShape row :=
  shape_invariant.of_reachable (system_refines.reachable sound_invariant reachable) id row found

theorem reachable_fenced : s.queue.Fenced :=
  (fenced_invariant.guarded byWorkers).of_reachable
    (system_refines.reachable sound_invariant reachable)

end Reachable

end Server

end Codexec.Server
