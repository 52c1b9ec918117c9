/-
**What a judging run reports, and when.**

A run that somebody listens to sends `Compiling` if there is a compile step, then `Running 0`, and
`Running k` after test number `k`; a compile error is the end of it. `reporting` is the monitor of
these events and of the executions between them: every execution comes right after an event.
`judge_ends` says that `judge` keeps to it, so this is known of every run, at every moment of it, and
`reports_of_judge` lists what a run that has returned has sent.
-/

import Codexec.Judge.Execution
import Codexec.Library.Protocol

namespace Codexec

open Codexec.Library Program

/-- How far an event says that the run is. -/
def Progress.reach : Progress → Nat
  | .compiling => 0
  | .running done _ => done + 1

/-- The event names the number of tests, and no more are done. -/
def Progress.Fits (total : Nat) : Progress → Prop
  | .compiling => True
  | .running done all => done ≤ total ∧ all = total

/-- The events of a run. -/
def reports (transcript : List (Exchange Call.Answer)) : List Progress :=
  transcript.filterMap fun exchange =>
    match exchange.1 with
    | .notify event => some event
    | _ => none

/-- The event of the compile step. -/
def compileReports (lang : Language) : List Progress :=
  if lang.compile.isSome then [.compiling] else []

/-- The first `n` events about the tests. -/
def runningReports (total n : Nat) : List Progress :=
  (List.range n).map fun done => .running done total

/-- What a run has reported and executed last. -/
inductive Stage
  /-- Nothing was reported. -/
  | quiet
  | compiling
  /-- The compile step was executed. -/
  | compiled
  /-- So many tests are done. -/
  | running (done : Nat)
  /-- One more was executed. -/
  | ran (done : Nat)
  deriving DecidableEq

namespace Stage

def step : Stage → (request : Call) → Call.Answer request → Stage
  | _, .notify .compiling, _ => .compiling
  | _, .notify (.running done _), _ => .running done
  | .compiling, .exec _ _, _ => .compiled
  | .running done, .exec _ _, _ => .ran done
  | stage, _, _ => stage

/-- An event was the last thing that happened. -/
def told : Stage → Bool
  | .compiling => true
  | .running _ => true
  | _ => false

theorem told_exec (stage : Stage) (spec : ExecSpec) (stdin : Bytes)
    (answer : Except SandboxError ExecOutcome) :
    (stage.step (.exec spec stdin) answer).told = false := by
  cases stage <;> rfl

/-- A run that returns a result has reported all its tests. -/
def Complete (stage : Stage) (result : JudgeResult) : Prop :=
  stage = .compiled ∧ result.tests = [] ∨ stage = .running result.tests.length

/-- The same, with the verdict: without a compile error the last event was about the last test. -/
def Ended (stage : Stage) (result : JudgeResult) : Prop :=
  stage = .compiled ∧ result.verdict = .compileError ∧ result.tests = [] ∨
    stage = .running result.tests.length ∧ result.verdict ≠ .compileError

/-- How far the run is: one more than the number of tests of the last report. -/
def reach : Stage → Nat
  | .running done => done + 1
  | .ran done => done + 1
  | _ => 0

/-- No more tests are done than there are. -/
def Fits (total : Nat) : Stage → Prop
  | .running done => done ≤ total
  | .ran done => done < total
  | _ => True

/-- What has been reported by a run in a stage. -/
def events (lang : Language) (total : Nat) : Stage → List Progress
  | .quiet => []
  | .compiling => compileReports lang
  | .compiled => compileReports lang
  | .running done => compileReports lang ++ runningReports total (done + 1)
  | .ran done => compileReports lang ++ runningReports total (done + 1)

theorem Ended.complete {stage : Stage} {result : JudgeResult} (ended : stage.Ended result) :
    stage.Complete result := by
  rcases ended with ⟨compiled, _, none⟩ | ⟨running, _⟩
  · exact Or.inl ⟨compiled, none⟩
  · exact Or.inr running

end Stage

namespace Judge

variable (self : Judge) (lang : Language) (req : JudgeRequest)

/-- What may be reported and executed in a stage. -/
def permits : Stage → Call → Prop
  | .quiet, .notify .compiling => lang.compile.isSome
  | .quiet, .notify (.running done total) =>
    lang.compile = none ∧ done = 0 ∧ total = req.tests.length
  | .compiled, .notify (.running done total) => done = 0 ∧ total = req.tests.length
  | .ran before, .notify (.running done total) => done = before + 1 ∧ total = req.tests.length
  | .compiling, .exec spec _ => ∃ step, lang.compile = some step ∧ spec = self.compileSpec lang step
  | .running done, .exec spec _ => done < req.tests.length ∧ spec = self.runSpec lang req
  | _, .notify _ => False
  | _, .exec _ _ => False
  | _, _ => True

/-- The monitor of a run. -/
def reporting : Protocol Call Call.Answer Stage where
  permits := self.permits lang req
  step := Stage.step

/-- A result, if there is one, comes after all its reports. -/
def Reported {ε : Type} (stage : Stage) (value : Except ε JudgeResult) : Prop :=
  ∀ result, value = .ok result → stage.Complete result

def Concluded {ε : Type} (stage : Stage) (value : Except ε JudgeResult) : Prop :=
  ∀ result, value = .ok result → stage.Ended result

/-- The loop has reported every result it returns, and none is a compile error. -/
def Looped (stage : Stage) (answer : Except SandboxError (List TestResult × Option String)) : Prop :=
  ∀ executed, answer = .ok executed → stage = .running executed.1.length ∧
    ∀ verdict ∈ executed.1.map TestResult.verdict, verdict ≠ .compileError

variable [Host] {lang req}

theorem runLoop_reports {i : Nat} {results : List TestResult} {failedTest : Option String}
    {tests : List TestCase} (left : i + tests.length = req.tests.length)
    (recorded : results.length = i)
    (judged : ∀ verdict ∈ results.map TestResult.verdict, verdict ≠ .compileError) :
    Obeys (self.reporting lang req) Looped (.running i)
      (self.runLoop req true (self.runSpec lang req) req.tests.length i results failedTest tests).run
    := by
  induction tests generalizing i results failedTest with
  | nil =>
    rw [runLoop_nil]
    refine .pure fun executed same => ?_
    cases same
    exact ⟨by rw [recorded], judged⟩
  | cons test rest ih =>
    rw [List.length_cons] at left
    rw [runLoop_cons]
    refine .call ⟨by omega, rfl⟩ fun answer => ?_
    cases answer with
    | error e => exact .pure fun executed same => by cases same
    | ok out =>
      have counted : (results ++ [self.testResult req failedTest test out]).length = i + 1 := by
        rw [List.length_append, List.length_singleton, recorded]
      have judged' : ∀ verdict ∈ (results ++ [self.testResult req failedTest test out]).map
          TestResult.verdict, verdict ≠ .compileError := by
        intro verdict inside
        rw [List.map_append] at inside
        rcases List.mem_append.mp inside with earlier | last
        · exact judged verdict earlier
        · rw [List.mem_singleton.mp last]
          exact classify_ne.2
      refine .call ⟨rfl, rfl⟩ fun _ => ?_
      split
      · refine .pure fun executed same => ?_
        cases same
        exact ⟨by rw [counted]; rfl, judged'⟩
      · exact ih (by omega) counted judged'

omit [Host] in
theorem finalResult_ne_compileError {total : Nat} {compileOutput : Option String}
    {executed : List TestResult × Option String}
    (judged : ∀ verdict ∈ executed.1.map TestResult.verdict, verdict ≠ .compileError) :
    (finalResult total compileOutput executed).verdict ≠ .compileError := by
  show ((executed.1.map TestResult.verdict).find? (· != .accepted)).getD .accepted ≠ _
  cases first : (executed.1.map TestResult.verdict).find? (· != .accepted) with
  | none => exact Verdict.noConfusion
  | some verdict => exact judged verdict (List.mem_of_find?_eq_some first)

/-- The tests are run from a stage in which `Running 0` may be reported. -/
theorem runTests_reports {stage : Stage} {compileOutput : Option String}
    (ready : self.permits lang req stage (.notify (.running 0 req.tests.length))) :
    Obeys (self.reporting lang req) Concluded stage
      (self.runTests lang req true compileOutput).run := by
  rw [runTests_run]
  refine .call ready fun _ => ?_
  have from0 : (self.reporting lang req).step stage (.notify (.running 0 req.tests.length)) () =
      .running 0 := by
    cases stage <;> rfl
  rw [from0]
  have none : ∀ verdict ∈ ([] : List TestResult).map TestResult.verdict,
      verdict ≠ .compileError := fun _ inside => absurd inside List.not_mem_nil
  refine (self.runLoop_reports (Nat.zero_add _) rfl none).bind fun after answer ends => .pure ?_
  rintro result same
  cases answer with
  | error e => cases same
  | ok executed =>
    cases same
    obtain ⟨running, judged⟩ := ends executed rfl
    exact Or.inr ⟨running, finalResult_ne_compileError judged⟩

theorem judgeInBox_reports :
    Obeys (self.reporting lang req) Concluded .quiet (self.judgeInBox lang req true).run := by
  rw [judgeInBox_run]
  refine .call trivial fun answer => ?_
  cases answer with
  | error e => exact .pure fun result same => by cases same
  | ok written =>
    show Obeys _ _ Stage.quiet (self.afterWrite lang req true)
    unfold afterWrite
    cases compiled : lang.compile with
    | none => exact self.runTests_reports ⟨compiled, rfl, rfl⟩
    | some step =>
      have first : lang.compile.isSome := by rw [compiled]; rfl
      refine .call first fun _ => .call ⟨step, compiled, rfl⟩ fun answer => ?_
      cases answer with
      | error e => exact .pure fun result same => by cases same
      | ok out =>
        show Obeys _ _ Stage.compiled (self.afterCompile lang req true out)
        unfold afterCompile
        simp only []
        split
        · exact self.runTests_reports ⟨rfl, rfl⟩
        · refine .pure fun result same => ?_
          cases same
          exact Or.inl ⟨rfl, rfl, rfl⟩

/-- **A run with a listener keeps to the monitor**, and ends after its last report. -/
theorem judge_ends (known : self.languages.get req.language = some lang) :
    Obeys (self.reporting lang req) Concluded .quiet (self.judge req true) := by
  rw [judge_of_known self req true known]
  refine .call trivial fun acquired => ?_
  cases acquired with
  | error e => exact .pure fun result same => by cases same
  | ok done =>
    refine (self.judgeInBox_reports).bind fun after answer ends => ?_
    refine .call (by cases after <;> trivial) fun _ => .pure fun result same => ?_
    have stays : (self.reporting lang req).step after .release ‹_› = after := by
      cases after <;> rfl
    rw [stays]
    cases answer with
    | error e => cases same
    | ok result' =>
      cases same
      exact ends result rfl

theorem judge_reports (known : self.languages.get req.language = some lang) :
    Obeys (self.reporting lang req) Reported .quiet (self.judge req true) :=
  (self.judge_ends known).mono fun _ _ ended result same => (ended result same).complete

/-! ### How far a run is -/

section Reach

variable {self : Judge} {stage : Stage} {request : Call} {event : Progress}

omit [Host] in
theorem reach_notify : (stage.step (.notify event) ()).reach = event.reach := by
  cases event <;> cases stage <;> rfl

omit [Host] in
/-- A report is about no less than what was reported before, and about no more than there is. -/
theorem permits_notify (permitted : self.permits lang req stage (.notify event))
    (fits : stage.Fits req.tests.length) :
    stage.reach ≤ event.reach ∧ event.Fits req.tests.length := by
  cases event with
  | compiling =>
    cases stage with
    | quiet => exact ⟨Nat.zero_le _, trivial⟩
    | _ => exact permitted.elim
  | running done total =>
    cases stage with
    | quiet => exact ⟨Nat.zero_le _, by rw [permitted.2.1]; exact Nat.zero_le _, permitted.2.2⟩
    | compiled => exact ⟨Nat.zero_le _, by rw [permitted.1]; exact Nat.zero_le _, permitted.2⟩
    | ran before =>
      have less : before < req.tests.length := fits
      obtain ⟨rfl, all⟩ := permitted
      exact ⟨Nat.le_succ _, less, all⟩
    | compiling => exact permitted.elim
    | running _ => exact permitted.elim

omit [Host] in
/-- **A run only gets further**, and not further than its last test. -/
theorem reach_step (permitted : self.permits lang req stage request)
    (fits : stage.Fits req.tests.length) (answer : Call.Answer request) :
    stage.reach ≤ (stage.step request answer).reach ∧
      (stage.step request answer).Fits req.tests.length := by
  cases request with
  | notify event =>
    obtain ⟨further, within⟩ := permits_notify permitted fits
    refine ⟨by rw [reach_notify]; exact further, ?_⟩
    cases event with
    | compiling => cases stage <;> exact trivial
    | running done total => cases stage <;> exact within.1
  | exec spec stdin =>
    cases stage with
    | compiling => exact ⟨Nat.le_refl _, trivial⟩
    | running done => exact ⟨Nat.le_refl _, permitted.1⟩
    | _ => exact permitted.elim
  | acquire => cases stage <;> exact ⟨Nat.le_refl _, fits⟩
  | writeFile name contents => cases stage <;> exact ⟨Nat.le_refl _, fits⟩
  | release => cases stage <;> exact ⟨Nat.le_refl _, fits⟩

omit [Host] in
theorem fits_after {transcript : List (Exchange Call.Answer)} (fits : stage.Fits req.tests.length)
    (accepts : (self.reporting lang req).Accepts stage transcript) :
    ((self.reporting lang req).after stage transcript).Fits req.tests.length := by
  induction transcript generalizing stage with
  | nil => exact fits
  | cons exchange rest ih =>
    obtain ⟨permitted, later⟩ := accepts
    exact ih (reach_step permitted fits exchange.2).2 later

end Reach

/-- **A result is about no more tests than there are.** -/
theorem results_le (known : self.languages.get req.language = some lang)
    {transcript : List (Exchange Call.Answer)} {result : JudgeResult}
    (follows : Follows (self.judge req true) transcript (.pure (.ok result))) :
    result.tests.length ≤ req.tests.length := by
  obtain ⟨accepts, concluded⟩ := (self.judge_ends known).of_returns follows
  have quiet : Stage.quiet.Fits req.tests.length := trivial
  have fits := fits_after quiet accepts
  rcases concluded result rfl with ⟨_, _, none⟩ | ⟨running, _⟩
  · rw [none]
    exact Nat.zero_le _
  · rw [running] at fits
    exact fits

/-! ### All events of a run -/

section Events

variable {self : Judge} {stage : Stage} {request : Call}

omit [Host] in
theorem events_step (permitted : self.permits lang req stage request)
    (answer : Call.Answer request) : (stage.step request answer).events lang req.tests.length =
      stage.events lang req.tests.length ++ reports [⟨request, answer⟩] := by
  have counts (done : Nat) : compileReports lang ++
      runningReports req.tests.length (done + 1) ++ [.running (done + 1) req.tests.length] =
        compileReports lang ++ runningReports req.tests.length (done + 2) := by
    simp [runningReports, List.range_succ]
  cases request with
  | notify event =>
    show _ = _ ++ [event]
    cases event with
    | compiling =>
      cases stage with
      | quiet =>
        show compileReports lang = [.compiling]
        exact if_pos permitted
      | _ => exact permitted.elim
    | running done total =>
      cases stage with
      | quiet =>
        obtain ⟨direct, rfl, rfl⟩ := permitted
        have unreported : compileReports lang = [] := by
          rw [compileReports, direct]
          rfl
        show compileReports lang ++ _ = _
        rw [unreported]
        rfl
      | compiled =>
        obtain ⟨rfl, rfl⟩ := permitted
        rfl
      | ran before =>
        obtain ⟨rfl, rfl⟩ := permitted
        exact (counts before).symm
      | compiling => exact permitted.elim
      | running _ => exact permitted.elim
  | exec spec stdin =>
    show _ = _ ++ []
    rw [List.append_nil]
    cases stage <;> rfl
  | acquire => cases stage <;> exact (List.append_nil _).symm
  | writeFile name contents => cases stage <;> exact (List.append_nil _).symm
  | release => cases stage <;> exact (List.append_nil _).symm

omit [Host] in
/-- The events so far are those of the stage. -/
theorem events_after {transcript : List (Exchange Call.Answer)}
    (accepts : (self.reporting lang req).Accepts stage transcript) :
    ((self.reporting lang req).after stage transcript).events lang req.tests.length =
      stage.events lang req.tests.length ++ reports transcript := by
  induction transcript generalizing stage with
  | nil => exact (List.append_nil _).symm
  | cons exchange rest ih =>
    obtain ⟨permitted, later⟩ := accepts
    have step : (stage.step exchange.1 exchange.2).events lang req.tests.length = _ :=
      events_step permitted exchange.2
    have split : reports (exchange :: rest) = reports [exchange] ++ reports rest :=
      List.filterMap_append (l := [exchange])
    rw [split, ← List.append_assoc, ← step]
    exact ih later

end Events

/-- **What a run that has returned has reported**: `Compiling` if there is a compile step, then
`Running 0` up to the number of its results; after a compile error nothing more. -/
theorem reports_of_judge (known : self.languages.get req.language = some lang)
    {transcript : List (Exchange Call.Answer)} {result : JudgeResult}
    (follows : Follows (self.judge req true) transcript (.pure (.ok result))) :
    reports transcript = compileReports lang ++
      if result.verdict = .compileError then []
      else runningReports req.tests.length (result.tests.length + 1) := by
  obtain ⟨accepts, concluded⟩ := (self.judge_ends known).of_returns follows
  have events := events_after accepts
  rcases concluded result rfl with ⟨compiled, failed, _⟩ | ⟨running, passed⟩
  · rw [compiled] at events
    rw [if_pos failed, List.append_nil]
    exact events.symm
  · rw [running] at events
    rw [if_neg passed]
    exact events.symm

end Judge

end Codexec
