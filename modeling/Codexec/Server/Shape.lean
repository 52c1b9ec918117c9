/-
**The shape of rows.**

The nullable columns of a row are set as its status says (`RowShape`), and every submission has its
source (`Sourced`). Both are invariants of the queue when the results that are stored come from
`judge`. So a claim cannot fail on a missing source, and a sweep sees every row in flight.
-/

import Codexec.Server.Queue
import Codexec.Judge.Execution

namespace Codexec.Server

open Codexec Codexec.Library Machine Program

/-- The columns that only a verdict sets. -/
structure Unjudged (row : Row) : Prop where
  verdict : row.verdict = none
  judgedAtMs : row.judgedAtMs = none
  testResults : row.testResults = none
  judgeVersion : row.judgeVersion = none

structure QueuedShape (row : Row) : Prop where
  leaseUntilMs : row.leaseUntilMs = none
  unjudged : Unjudged row

structure FlyingShape (row : Row) : Prop where
  attempt : 1 ≤ row.attempt
  leaseUntilMs : row.leaseUntilMs.isSome
  unjudged : Unjudged row

/-- Given up. -/
structure FailedShape (row : Row) : Prop where
  verdict : row.verdict = some "IE"
  error : row.error.isSome
  testResults : row.testResults = none
  judgeVersion : row.judgeVersion = none

/-- Judged. -/
structure JudgedShape (row : Row) : Prop where
  verdict : row.verdict ≠ some "IE"
  testResults : row.testResults.isSome
  timeMs : row.timeMs.isSome
  memoryKb : row.memoryKb.isSome
  judgeVersion : row.judgeVersion.isSome
  error : row.error = none

structure DoneShape (row : Row) : Prop where
  leaseUntilMs : row.leaseUntilMs = none
  verdict : row.verdict.isSome
  judgedAtMs : row.judgedAtMs.isSome
  outcome : FailedShape row ∨ JudgedShape row

/-- The columns are set as the status says. -/
def RowShape (row : Row) : Prop :=
  match row.status with
  | .queued => QueuedShape row
  | .compiling => FlyingShape row
  | .running => FlyingShape row
  | .done => DoneShape row

section Rows

variable {row : Row}

theorem rowShape_of_inFlight (flying : row.status.inFlight = true) (shape : FlyingShape row) :
    RowShape row := by
  unfold RowShape
  cases status : row.status with
  | queued =>
    rw [status] at flying
    cases flying
  | compiling => exact shape
  | running => exact shape
  | done =>
    rw [status] at flying
    cases flying

theorem RowShape.flying (shape : RowShape row) (flying : row.status.inFlight = true) :
    FlyingShape row := by
  unfold RowShape at shape
  cases status : row.status with
  | queued =>
    rw [status] at flying
    cases flying
  | compiling =>
    rw [status] at shape
    exact shape
  | running =>
    rw [status] at shape
    exact shape
  | done =>
    rw [status] at flying
    cases flying

theorem RowShape.unjudged (shape : RowShape row) (live : row.status ≠ .done) : Unjudged row := by
  unfold RowShape at shape
  cases status : row.status with
  | queued =>
    rw [status] at shape
    exact shape.unjudged
  | compiling =>
    rw [status] at shape
    exact shape.unjudged
  | running =>
    rw [status] at shape
    exact shape.unjudged
  | done => exact absurd status live

theorem live_of_inFlight (flying : row.status.inFlight = true) : row.status ≠ .done := by
  intro done
  rw [done] at flying
  cases flying

theorem inFlight_of_expired {now : Int64} (late : expired now row = true) :
    row.status.inFlight = true := by
  rw [expired, Bool.and_eq_true] at late
  exact late.1

theorem rowShape_givenUp {world : World} {error : Row → String} (unjudged : Unjudged row) :
    RowShape ((givenUp world error).set row) := by
  refine ⟨rfl, rfl, rfl, Or.inl ⟨rfl, rfl, ?_, ?_⟩⟩
  · exact unjudged.testResults
  · exact unjudged.judgeVersion

theorem rowShape_requeued {error : Row → Option String} (unjudged : Unjudged row) :
    RowShape ((requeued error).set row) :=
  ⟨rfl, unjudged.verdict, unjudged.judgedAtMs, unjudged.testResults, unjudged.judgeVersion⟩

end Rows

/-! ### Rows of a run -/

section Judged

variable [Host]

/-- The results that workers store. -/
def Judged (result : JudgeResult) : Prop :=
  ∃ (self : Judge) (req : JudgeRequest) (progress : Bool) (transcript : List (Exchange Call.Answer)),
    Follows (self.judge req progress) transcript (.pure (.ok result))

theorem Judged.verdict_ne {result : JudgeResult} (judged : Judged result) :
    some result.verdict.code ≠ some "IE" := by
  obtain ⟨self, req, progress, transcript, follows⟩ := judged
  obtain ⟨lang, _, executed⟩ := Judge.judge_executes follows
  intro same
  exact executed.verdict_ne_internalError (Verdict.code_eq_IE.mp (Option.some.inj same))

/-- Workers store what `judge` returned. -/
def byWorkers (_ : Queue) : Op → Prop
  | .finish _ _ _ _ result => Judged result
  | _ => True

/-- **Every call keeps the shape of a row.** -/
theorem RowStep.shape {state : Queue} {op : Op} {row next : Row}
    (permitted : op.Permitted state.issued) (judged : byWorkers state op) (shape : RowShape row)
    (step : RowStep op row next) : RowShape next := by
  cases step with
  | same => exact shape
  | claimed queued =>
    have unjudged := shape.unjudged (by rw [queued]; exact Status.noConfusion)
    exact ⟨Nat.succ_pos _, rfl, unjudged.verdict, unjudged.judgedAtMs, unjudged.testResults,
      unjudged.judgeVersion⟩
  | progressed _ _ flying =>
    have before := shape.flying flying
    refine rowShape_of_inFlight permitted.2 ⟨before.attempt, rfl, ?_⟩
    exact ⟨before.unjudged.verdict, before.unjudged.judgedAtMs, before.unjudged.testResults,
      before.unjudged.judgeVersion⟩
  | finished _ _ _ =>
    exact ⟨rfl, rfl, rfl, Or.inr ⟨judged.verdict_ne, rfl, rfl, rfl, rfl, rfl⟩⟩
  | gaveUp _ _ live _ => exact rowShape_givenUp (shape.unjudged live)
  | retried _ _ live _ => exact rowShape_requeued (shape.unjudged live)
  | sweptUp lost =>
    rw [hopeless, Bool.and_eq_true] at lost
    exact rowShape_givenUp (shape.unjudged (live_of_inFlight (inFlight_of_expired lost.1)))
  | sweptBack found =>
    rw [recoverable, Bool.and_eq_true] at found
    exact rowShape_requeued (shape.unjudged (live_of_inFlight (inFlight_of_expired found.1)))
  | restarted _ flying => exact rowShape_requeued (shape.unjudged (live_of_inFlight flying))

theorem shape_invariant : (queue.guarded byWorkers).Invariant fun state =>
    ∀ id row, state.store.submissions.get id = some row → RowShape row :=
  rows_invariant (fun _ _ => ⟨rfl, rfl, rfl, rfl, rfl⟩)
    fun _ _ _ _ permitted judged _ shape step => step.shape permitted judged shape

end Judged

/-! ### Sources -/

/-- Every submission has its source. -/
def Sourced (store : Store) : Prop :=
  ∀ id row, store.submissions.get id = some row → ∃ source, store.sources.get id = some source

theorem sourced_invariant : queue.Invariant fun state => Sourced state.store where
  start := by
    rintro _ rfl id row found
    cases found
  step := by
    rintro state op _ sourced ⟨_, rfl⟩ id row found
    cases held : state.store.submissions.get id with
    | none =>
      obtain ⟨world, new, _, rfl, _, inserted⟩ := Op.row_new held found
      exact ⟨_, (inserted.source _).trans (if_pos rfl)⟩
    | some old =>
      obtain ⟨source, stored⟩ := sourced id old held
      refine ⟨source, ?_⟩
      rcases Op.sources_cases state.store op with same | ⟨world, new, rfl, inserted⟩
      · show (op.after state.store).sources.get id = some source
        rw [same, stored]
      · show ((Op.insert world new).after state.store).sources.get id = some source
        have other : world.newId ≠ id := by
          intro key
          rw [← key, inserted.fresh] at held
          cases held
        rw [inserted.source, if_neg other, stored]

/-- **With its source in place a claim fails only when a statement fails.** -/
theorem claimNext_error {store : Store} (sourced : Sourced store) {world : World} {leaseMs : Int64}
    {e : StoreError} (failed : (store.claimNext world leaseMs).1 = .error e) :
    ∃ n, world.fault n = some e := by
  obtain ⟨body, _⟩ := Store.transaction_error failed
  rcases Store.of_bind_eq_error body with first | ⟨_, _, body⟩
  · exact ⟨0, World.fault_of_statement first⟩
  · cases oldest : store.oldest with
    | none =>
      rw [oldest] at body
      cases body
    | some row =>
      rw [oldest] at body
      rcases Store.of_bind_eq_error body with second | ⟨_, _, body⟩
      · exact ⟨1, World.fault_of_statement second⟩
      · obtain ⟨source, stored⟩ := sourced row.id row (Store.oldest_spec oldest).1
        rw [Store.sources_update, stored] at body
        rcases Store.of_bind_eq_error body with third | ⟨_, _, body⟩
        · exact ⟨2, World.fault_of_statement third⟩
        · cases body

/-- What a sweep at time `now` does. -/
structure Swept (store after : Store) (now : Int64) (maxAttempts : UInt32) (report : SweepReport) :
    Prop where
  givenUp : ∀ id row lease, store.submissions.get id = some row → row.status.inFlight = true →
    row.leaseUntilMs = some lease → lease < now → maxAttempts.toNat ≤ row.attempt →
    ∃ next, after.submissions.get id = some next ∧ next.status = .done ∧ next.verdict = some "IE"
  requeued : ∀ id row lease, store.submissions.get id = some row → row.status.inFlight = true →
    row.leaseUntilMs = some lease → lease < now → row.attempt < maxAttempts.toNat →
    ∃ next, after.submissions.get id = some next ∧ next.status = .queued
  others : ∀ id row, store.submissions.get id = some row → expired now row = false →
    after.submissions.get id = some row
  failed : report.failed = store.submissions.affected (hopeless now maxAttempts)
  requeued' : report.requeued = store.submissions.affected (recoverable now maxAttempts)
  total : report.failed + report.requeued = store.submissions.affected (expired now)
  sources : after.sources = store.sources
  current : ∀ id row lease, after.submissions.get id = some row → row.status.inFlight = true →
    row.leaseUntilMs = some lease → ¬ lease < now

theorem sweep_swept {store after : Store} {world : World} {maxAttempts : UInt32}
    {report : SweepReport} (swept : store.sweep world maxAttempts = (.ok report, after)) :
    Swept store after world.now maxAttempts report := by
  rcases store.sweep_cases world maxAttempts with ⟨e, failed⟩ | ⟨_, done, sources, rows⟩
  · rw [failed] at swept
    cases swept
  rw [done] at swept
  cases swept
  have late : ∀ {row : Row} {lease : Int64}, row.status.inFlight = true →
      row.leaseUntilMs = some lease → lease < world.now → expired world.now row = true := by
    intro row lease flying held before
    rw [expired, flying, held]
    exact decide_eq_true before
  have untouched : ∀ {row : Row}, expired world.now row = false →
      sweptRow world maxAttempts row = row := by
    intro row current
    rw [sweptRow, hopeless, current]
    rfl
  refine ⟨?_, ?_, ?_, rfl, rfl, ?_, sources, ?_⟩
  · intro id row lease found flying held before spent
    have lost : hopeless world.now maxAttempts row = true := by
      rw [hopeless, late flying held before, decide_eq_true spent]
      rfl
    refine ⟨(givenUp world sweepError).set row, ?_, rfl, rfl⟩
    rw [rows, found, Option.map_some, sweptRow, if_pos lost]
  · intro id row lease found flying held before left
    have kept : ¬ hopeless world.now maxAttempts row = true := by
      rw [hopeless, Bool.and_eq_true, decide_eq_true_eq]
      omega
    refine ⟨(requeued Row.error).set row, ?_, rfl⟩
    rw [rows, found, Option.map_some, sweptRow, if_neg kept, if_pos (late flying held before)]
  · intro id row found current
    rw [rows, found, Option.map_some, untouched current]
  · have split := store.submissions.affected_split (expired world.now) fun row =>
      decide (maxAttempts.toNat ≤ row.attempt)
    have rest : (fun row => expired world.now row && !decide (maxAttempts.toNat ≤ row.attempt)) =
        recoverable world.now maxAttempts := by
      funext row
      by_cases reached : maxAttempts.toNat ≤ row.attempt
      · rw [recoverable, decide_eq_true reached, decide_eq_false (Nat.not_lt.mpr reached)]
        rfl
      · rw [recoverable, decide_eq_false reached, decide_eq_true (Nat.lt_of_not_le reached)]
        rfl
    rw [rest] at split
    exact split
  · intro id row lease found flying held before
    rw [rows] at found
    obtain ⟨old, stored, rfl⟩ := Option.map_eq_some_iff.mp found
    have expiredNow := late flying held before
    by_cases current : expired world.now old = false
    · rw [untouched current, current] at expiredNow
      cases expiredNow
    · have grounded : expired world.now (sweptRow world maxAttempts old) = false := by
        unfold sweptRow
        split
        · rfl
        · rw [if_pos (by simpa using current)]
          rfl
      rw [grounded] at expiredNow
      cases expiredNow

/-- **A sweep fails only when a statement fails**, and then leaves the tables as they were. -/
theorem sweep_error {store after : Store} {world : World} {maxAttempts : UInt32} {e : StoreError}
    (failed : store.sweep world maxAttempts = (.error e, after)) :
    (∃ n < 3, world.fault n = some e) ∧ after = store := by
  obtain ⟨body, same⟩ := Store.transaction_error (congrArg Prod.fst failed)
  refine ⟨?_, (congrArg Prod.snd failed).symm.trans same⟩
  rcases Store.of_bind_eq_error body with first | ⟨_, _, body⟩
  · exact ⟨0, by decide, World.fault_of_statement first⟩
  · rcases Store.of_bind_eq_error body with second | ⟨_, _, body⟩
    · exact ⟨1, by decide, World.fault_of_statement second⟩
    · rcases Store.of_bind_eq_error body with third | ⟨_, _, body⟩
      · exact ⟨2, by decide, World.fault_of_statement third⟩
      · cases body

/-- Without a failing statement a sweep does its work. -/
theorem sweep_works {store : Store} {world : World} {maxAttempts : UInt32}
    (works : ∀ n < 3, world.fault n = none) :
    ∃ report after, store.sweep world maxAttempts = (.ok report, after) := by
  rcases store.sweep_cases world maxAttempts with ⟨e, failed⟩ | ⟨after, done, _, _⟩
  · obtain ⟨⟨n, small, fault⟩, _⟩ := sweep_error failed
    rw [works n small] at fault
    cases fault
  · exact ⟨_, after, done⟩

/-- **Row shapes, and no lost job.** -/
theorem queue_rows_shaped [Host] {steps : List (Transition Queue Op)} {state : Queue}
    (run : (queue.guarded byWorkers).Run steps state) :
    (∀ id row, state.store.submissions.get id = some row → RowShape row) ∧
    (∀ id row, state.store.submissions.get id = some row →
      state.store.sources.affected (fun source => decide (source.submissionId = id)) = 1) ∧
    (∀ world leaseMs e, (state.store.claimNext world leaseMs).1 = .error e →
      (∃ n, world.fault n = some e) ∧ (state.store.claimNext world leaseMs).2 = state.store) ∧
    (∀ world new e, (state.store.insert world new).1 = .error e →
      (state.store.insert world new).2 = state.store) ∧
    (∀ world maxAttempts, (∀ n < 3, world.fault n = none) →
      ∃ report after, state.store.sweep world maxAttempts = (.ok report, after)) ∧
    (∀ world maxAttempts e after, state.store.sweep world maxAttempts = (.error e, after) →
      (∃ n < 3, world.fault n = some e) ∧ after = state.store) ∧
    (∀ world maxAttempts report after,
      state.store.sweep world maxAttempts = (.ok report, after) →
        Swept state.store after world.now maxAttempts report) := by
  have sourced : Sourced state.store := (sourced_invariant.guarded byWorkers).of_run run
  refine ⟨shape_invariant.of_run run, ?_, ?_, ?_, fun _ _ => sweep_works,
    fun _ _ _ _ => sweep_error, fun _ _ _ _ => sweep_swept⟩
  · intro id row found
    obtain ⟨source, stored⟩ := sourced id row found
    have one := state.store.sources.affected_key id fun _ => true
    rw [stored, Option.filter_some, if_pos rfl] at one
    simp only [Bool.and_true] at one
    exact one
  · intro world leaseMs e failed
    exact ⟨claimNext_error sourced failed, (Store.transaction_error failed).2⟩
  · intro world new e failed
    exact (Store.transaction_error failed).2

/-- What the judge of the unit tests returns for a correct solution. -/
def judgedSample : JudgeResult :=
  letI := plainHost
  match sampleJudge.result (sampleRequest "python" "2\n") true (sampleSandbox .ok "2\n" "") with
  | .ok result => result
  | .error _ => sampleResult

theorem judgedSample_judged : @Judged plainHost judgedSample := by
  let host : Host := plainHost
  have follows := follows_transcript (sampleSandbox .ok "2\n" "") []
    (sampleJudge.judge (sampleRequest "python" "2\n") true)
  have value : (Program.run (sampleSandbox .ok "2\n" "") []
      (sampleJudge.judge (sampleRequest "python" "2\n") true)).1 = .ok judgedSample := rfl
  rw [value] at follows
  exact ⟨_, _, _, _, follows⟩

/-- Besides a judged submission there are one in its second attempt and one in its first. -/
def flyingOps (result : JudgeResult) : List Op :=
  sampleOps result ++
    [.insert { worldAt 30 with newId := "s2" } sampleSubmission, .claimNext (worldAt 31) 10,
      .failAttempt (worldAt 32) ⟨"s2", 1⟩ 2 "no sandbox", .claimNext (worldAt 33) 10,
      .insert { worldAt 34 with newId := "s3" } sampleSubmission, .claimNext (worldAt 35) 10]

theorem flyingOps_run (result : JudgeResult) :
    queue.Run (Queue.trace ⟨.empty, []⟩ (flyingOps result) [])
      ((flyingOps result).foldl Queue.perform ⟨.empty, []⟩) := by
  refine Queue.run_trace (.start rfl)
    ⟨trivial, trivial, ?_, trivial, trivial, ?_, trivial, trivial, trivial, trivial⟩
  · show (⟨"s1", 1⟩ : Token) ∈ [⟨"s1", 1⟩]
    exact List.mem_cons_self
  · show (⟨"s2", 1⟩ : Token) ∈ [⟨"s2", 1⟩, ⟨"s1", 1⟩]
    exact List.mem_cons_self

/-- When the leases have run out, a sweep gives the first up and puts the other one back. -/
theorem queue_rows_shaped_sample : ∃ store : Store,
    (∃ row, store.submissions.get "s1" = some row ∧ RowShape row ∧ row.status = .done) ∧
    ∃ report after, store.sweep (worldAt 100) 2 = (.ok report, after) ∧ report = ⟨1, 1⟩ ∧
      (∃ row, after.submissions.get "s2" = some row ∧ row.status = .done ∧
        row.verdict = some "IE") ∧
      ∃ row, after.submissions.get "s3" = some row ∧ row.status = .queued := by
  let host : Host := plainHost
  have meets : ∀ taken ∈ Queue.trace ⟨.empty, []⟩ (flyingOps judgedSample) [],
      byWorkers taken.before taken.label := by
    intro taken member
    simp only [flyingOps, sampleOps, List.cons_append, List.nil_append, Queue.trace, List.mem_cons,
      List.not_mem_nil, or_false] at member
    rcases member with rfl | rfl | rfl | rfl | rfl | rfl | rfl | rfl | rfl <;>
      first | exact judgedSample_judged | trivial
  obtain ⟨shapes, -, -, -, works, -, swept⟩ :=
    queue_rows_shaped ((flyingOps_run judgedSample).guarded meets)
  obtain ⟨report, after, done⟩ := works (worldAt 100) 2 fun _ _ => rfl
  have swept := swept _ _ _ _ done
  refine ⟨_, ⟨_, rfl, shapes "s1" _ rfl, rfl⟩, report, after, done, ?_, ?_, ?_⟩
  · obtain ⟨requeued, failed⟩ := report
    rw [SweepReport.mk.injEq]
    exact ⟨swept.requeued', swept.failed⟩
  · exact swept.givenUp "s2" _ _ rfl rfl rfl (by decide) (by decide)
  · exact swept.requeued "s3" _ _ rfl rfl rfl (by decide) (by decide)

end Codexec.Server
