/-
**What a judging run returns, in terms of its executions.**

`judge_executes`: a run that returns a result has executed the compile step, if there is one, and
then a prefix of the tests in order, each with the same command and its own input, and the result is
a function of the outcomes (`executedRun`). The prefix is all the tests or, if the run stops at
failures, the tests up to the first failure (`Extent`). Every statement is about any way to follow
the program, hence about every sandbox.
-/

import Codexec.Judge.Trace

namespace Codexec

open Codexec.Library Program

/-- One execution: the command, its input and the answer. -/
abbrev Execution : Type := ExecSpec × Bytes × Except SandboxError ExecOutcome

/-- The executions of a transcript, in order. -/
def executions : List (Exchange Call.Answer) → List Execution
  | [] => []
  | ⟨.exec spec stdin, answer⟩ :: rest => (spec, stdin, answer) :: executions rest
  | _ :: rest => executions rest

theorem executions_writeFile (name : String) (contents : Bytes) (answer : Except SandboxError Unit)
    (rest : List (Exchange Call.Answer)) :
    executions (⟨.writeFile name contents, answer⟩ :: rest) = executions rest := rfl

theorem executions_append (before after : List (Exchange Call.Answer)) :
    executions (before ++ after) = executions before ++ executions after := by
  induction before with
  | nil => rfl
  | cons exchange rest ih =>
    obtain ⟨request, answer⟩ := exchange
    cases request with
    | exec spec stdin => exact congrArg ((spec, stdin, answer) :: ·) ih
    | _ => exact ih

/-- An execution is a call of the run, with its answer. -/
theorem mem_executions {transcript : List (Exchange Call.Answer)} {execution : Execution} :
    execution ∈ executions transcript ↔
      ⟨.exec execution.1 execution.2.1, execution.2.2⟩ ∈ transcript := by
  induction transcript with
  | nil => simp [executions]
  | cons exchange rest ih =>
    obtain ⟨request, answer⟩ := exchange
    obtain ⟨spec, stdin, given⟩ := execution
    cases request <;> simp [executions, ih, and_assoc]

section Calls

variable {α β : Type} {transcript : List (Exchange Call.Answer)}

/-- A progress event is no execution. -/
theorem follows_told {progress : Bool} {event : Progress} {program : JudgeM α} {value : α}
    (follows : Follows (told progress event program) transcript (.pure value)) :
    ∃ later, Follows program later (.pure value) ∧ executions transcript = executions later := by
  unfold told at follows
  cases progress
  · exact ⟨transcript, follows, rfl⟩
  · cases follows with
    | call later => exact ⟨_, later, rfl⟩

/-- A run that returned a value got an answer to go on with. -/
theorem follows_onAnswer {next : β → JudgeM (Except SandboxError α)}
    {answer : Except SandboxError β} {value : α}
    (follows : Follows (onAnswer next answer) transcript (.pure (.ok value))) :
    ∃ given, answer = .ok given ∧ Follows (next given) transcript (.pure (.ok value)) := by
  cases answer with
  | ok given => exact ⟨given, rfl, follows⟩
  | error e =>
    obtain ⟨_, same⟩ := Follows.of_pure follows
    cases same

end Calls

namespace Judge

variable [Host] (self : Judge)

/-! ### One test -/

section Test

variable {out : ExecOutcome} {test : TestCase} {comparer : Comparer}

/-- Executed with status `Ok`, and accepted by the comparer. -/
def Passed (comparer : Comparer) (test : TestCase) (out : ExecOutcome) : Prop :=
  out.status = .ok ∧ ∀ expected, test.expected = some expected →
    compare comparer expected out.stdout = .ok ()

/-- **A test is accepted exactly when it passed.** -/
theorem classify_accepted :
    (classify out test comparer).1 = .accepted ↔ Passed comparer test out := by
  unfold classify Passed
  cases status : out.status with
  | ok =>
    cases expected : test.expected with
    | none => simp
    | some answer =>
      cases compared : compare comparer answer out.stdout with
      | ok done => simp [compared]
      | error why => simp [compared]
  | _ => simp

/-- The verdicts of tests are neither of the two that are not about a test. -/
theorem classify_ne : (classify out test comparer).1 ≠ .internalError ∧
    (classify out test comparer).1 ≠ .compileError := by
  unfold classify
  cases out.status with
  | ok =>
    cases test.expected with
    | none => simp
    | some answer =>
      simp only []
      split <;> simp
  | _ => simp

end Test

/-! ### The loop -/

/-- The results of executed tests, as the loop accumulates them. -/
def executedRun (req : JudgeRequest) : List TestResult → Option String →
    List (TestCase × ExecOutcome) → List TestResult × Option String
  | results, failedTest, [] => (results, failedTest)
  | results, failedTest, (test, out) :: rest =>
    executedRun req (results ++ [self.testResult req failedTest test out])
      (nextFailed req failedTest test out) rest

/-- One execution of a test. -/
def testExecution (spec : ExecSpec) (pair : TestCase × ExecOutcome) : Execution :=
  (spec, pair.1.input, .ok pair.2)

/-- All the tests are executed, or the run stops at failures and the first of them is the last test
that is executed. -/
inductive Extent (req : JudgeRequest) : List TestCase → List ExecOutcome → Prop
  | nil : Extent req [] []
  | stop {test : TestCase} {rest : List TestCase} {out : ExecOutcome}
      (fails : (classify out test req.comparer).1 ≠ .accepted)
      (stops : req.stopOnFirstFailure = true) : Extent req (test :: rest) [out]
  | next {test : TestCase} {rest : List TestCase} {out : ExecOutcome} {outs : List ExecOutcome}
      (goesOn : (classify out test req.comparer).1 = .accepted ∨ req.stopOnFirstFailure = false)
      (later : Extent req rest outs) : Extent req (test :: rest) (out :: outs)

theorem Extent.fits {req : JudgeRequest} {tests : List TestCase} {outs : List ExecOutcome}
    (extent : Extent req tests outs) : outs.length ≤ tests.length := by
  induction extent with
  | nil => exact Nat.le_refl 0
  | stop fails stops => simp
  | next goesOn later ih => exact Nat.succ_le_succ ih

/-- **A run none of whose tests fails executes them all.** -/
theorem Extent.all_of_accepted {req : JudgeRequest} {tests : List TestCase}
    {outs : List ExecOutcome} (extent : Extent req tests outs)
    (accepted : ∀ pair ∈ tests.zip outs, (classify pair.2 pair.1 req.comparer).1 = .accepted) :
    outs.length = tests.length := by
  induction extent with
  | nil => rfl
  | stop fails stops => exact absurd (accepted _ List.mem_cons_self) fails
  | next goesOn later ih =>
    exact congrArg Nat.succ (ih fun pair inside => accepted pair (List.mem_cons_of_mem _ inside))

/-- As long as a run that stops at failures goes on, no test has failed. -/
def Unfailed (req : JudgeRequest) (failedTest : Option String) : Prop :=
  failedTest = none ∨ req.stopOnFirstFailure = false

/-- One round of the loop: it stops at a failure, or nothing has failed yet. -/
theorem stops_iff {req : JudgeRequest} {failedTest : Option String}
    (unfailed : Unfailed req failedTest) (test : TestCase) (out : ExecOutcome) :
    (firstFailure req failedTest test out && req.stopOnFirstFailure) = true ↔
      (classify out test req.comparer).1 ≠ .accepted ∧ req.stopOnFirstFailure = true := by
  unfold firstFailure
  rcases unfailed with rfl | never
  · simp
  · simp [never]

theorem Unfailed.next {req : JudgeRequest} {failedTest : Option String}
    (unfailed : Unfailed req failedTest) {test : TestCase} {out : ExecOutcome}
    (goesOn : (classify out test req.comparer).1 = .accepted ∨ req.stopOnFirstFailure = false) :
    Unfailed req (nextFailed req failedTest test out) := by
  rcases goesOn with accepted | never
  · refine unfailed.imp (fun none => ?_) id
    rw [nextFailed, firstFailure, accepted, none]
    rfl
  · exact Or.inr never

/-- **The loop executes a prefix of its tests, in order.** -/
theorem runLoop_returns {req : JudgeRequest} {progress : Bool} {spec : ExecSpec} {total i : Nat}
    {results : List TestResult} {failedTest : Option String} {tests : List TestCase}
    {transcript : List (Exchange Call.Answer)} {executed : List TestResult × Option String}
    (unfailed : Unfailed req failedTest)
    (follows : Follows (self.runLoop req progress spec total i results failedTest tests).run
      transcript (.pure (.ok executed))) :
    ∃ outs, Extent req tests outs ∧
      executions transcript = (tests.zip outs).map (testExecution spec) ∧
      executed = self.executedRun req results failedTest (tests.zip outs) := by
  induction tests generalizing i results failedTest transcript with
  | nil =>
    rw [runLoop_nil] at follows
    obtain ⟨rfl, same⟩ := Follows.of_pure follows
    cases same
    exact ⟨[], .nil, rfl, rfl⟩
  | cons test rest ih =>
    rw [runLoop_cons] at follows
    cases follows with
    | call later =>
      obtain ⟨out, rfl, executed⟩ := follows_onAnswer later
      obtain ⟨transcript, later, same⟩ := follows_told executed
      by_cases stops : (firstFailure req failedTest test out && req.stopOnFirstFailure) = true
      · rw [if_pos stops] at later
        obtain ⟨rfl, done⟩ := Follows.of_pure later
        cases done
        obtain ⟨fails, stops⟩ := (stops_iff unfailed test out).mp stops
        refine ⟨[out], .stop fails stops, ?_, ?_⟩
        · rw [executions, same]
          simp [executions, testExecution]
        · simp [executedRun]
      · rw [if_neg stops] at later
        rw [stops_iff unfailed, not_and_or, not_not, Bool.not_eq_true] at stops
        obtain ⟨outs, extent, ran, final⟩ := ih (unfailed.next stops) later
        refine ⟨out :: outs, .next stops extent, ?_, final⟩
        rw [executions, same, ran]
        rfl

/-- What a view sees of the results, if it does not see which failure was the first. -/
theorem executedRun_map {β : Type} {req : JudgeRequest} {view : TestResult → β}
    {seen : TestCase × ExecOutcome → β}
    (same : ∀ failed pair, view (self.testResult req failed pair.1 pair.2) = seen pair)
    (results : List TestResult) (failedTest : Option String)
    (pairs : List (TestCase × ExecOutcome)) :
    (self.executedRun req results failedTest pairs).1.map view =
      results.map view ++ pairs.map seen := by
  induction pairs generalizing results failedTest with
  | nil => exact (List.append_nil _).symm
  | cons pair rest ih =>
    rw [executedRun, ih, List.map_append, List.append_assoc, List.map_singleton, same]
    rfl

/-- The verdicts of executed tests. -/
theorem executedRun_verdicts (req : JudgeRequest) (results : List TestResult)
    (failedTest : Option String) (pairs : List (TestCase × ExecOutcome)) :
    (self.executedRun req results failedTest pairs).1.map TestResult.verdict =
      results.map TestResult.verdict ++
        pairs.map fun pair => (classify pair.2 pair.1 req.comparer).1 :=
  self.executedRun_map (fun _ _ => rfl) results failedTest pairs

/-- Every recorded result is that of one executed test. -/
theorem executedRun_mem {req : JudgeRequest} {results : List TestResult}
    {failedTest : Option String} {pairs : List (TestCase × ExecOutcome)} {result : TestResult}
    (recorded : result ∈ (self.executedRun req results failedTest pairs).1) :
    result ∈ results ∨ ∃ failed pair, pair ∈ pairs ∧
      result = self.testResult req failed pair.1 pair.2 := by
  induction pairs generalizing results failedTest with
  | nil => exact Or.inl recorded
  | cons pair rest ih =>
    rcases ih recorded with old | ⟨failed, other, inside, same⟩
    · rw [List.mem_append, List.mem_singleton] at old
      rcases old with old | rfl
      · exact Or.inl old
      · exact Or.inr ⟨failedTest, pair, List.mem_cons_self, rfl⟩
    · exact Or.inr ⟨failed, other, List.mem_cons_of_mem _ inside, same⟩

/-- The first executed test that was not accepted. -/
def firstFailed (req : JudgeRequest) (pairs : List (TestCase × ExecOutcome)) :
    Option (TestCase × ExecOutcome) :=
  pairs.find? fun pair => (classify pair.2 pair.1 req.comparer).1 != .accepted

/-- **`failed_test` names the first failure.** -/
theorem executedRun_failed (req : JudgeRequest) (results : List TestResult)
    (failedTest : Option String) (pairs : List (TestCase × ExecOutcome)) :
    (self.executedRun req results failedTest pairs).2 =
      failedTest.or ((firstFailed req pairs).map fun pair => pair.1.name) := by
  induction pairs generalizing results failedTest with
  | nil => exact (Option.or_none).symm
  | cons pair rest ih =>
    rw [executedRun, ih, nextFailed, firstFailure, firstFailed, firstFailed, List.find?_cons]
    cases failedTest with
    | some name => simp
    | none =>
      cases fails : (classify pair.2 pair.1 req.comparer).1 != .accepted with
      | true => simp
      | false => simp

/-- Without a failure there is no failed test. -/
theorem executedRun_failedTest {req : JudgeRequest} {results : List TestResult}
    {failedTest : Option String} {pairs : List (TestCase × ExecOutcome)}
    (accepted : ∀ pair ∈ pairs, (classify pair.2 pair.1 req.comparer).1 = .accepted) :
    (self.executedRun req results failedTest pairs).2 = failedTest := by
  have none : firstFailed req pairs = none := by
    rw [firstFailed, List.find?_eq_none]
    intro pair inside
    simp [accepted pair inside]
  rw [executedRun_failed, none, Option.map_none, Option.or_none]

/-! ### The whole run -/

variable {self}

/-- The executions of a compile step that did not fail, and the output that is kept. -/
inductive Compiled (self : Judge) (lang : Language) : List Execution → Option String → Prop
  | interpreted (without : lang.compile = none) : Compiled self lang [] none
  | compiled {step : Step} {out : ExecOutcome} (found : lang.compile = some step)
      (ok : out.status = .ok) :
      Compiled self lang [(self.compileSpec lang step, [], .ok out)]
        ((some (excerpt out.stdout self.cfg.compileOutputBytes)).filter
          fun kept => !kept.isEmpty)

/-- What a run that returned a result has done. -/
inductive Executed (self : Judge) (req : JudgeRequest) (lang : Language) (ran : List Execution) :
    JudgeResult → Prop
  /-- The compile step failed, and nothing else was executed. -/
  | compileFailed {step : Step} {out : ExecOutcome} (found : lang.compile = some step)
      (compile : ran = [(self.compileSpec lang step, [], .ok out)]) (failed : out.status ≠ .ok) :
      Executed self req lang ran (compileFailure req.tests.length out.status
        (excerpt out.stdout self.cfg.compileOutputBytes))
  /-- The tests were executed, after the compile step if there is one. -/
  | tested {compile : List Execution} {compileOutput : Option String} {outs : List ExecOutcome}
      (compiled : Compiled self lang compile compileOutput) (extent : Extent req req.tests outs)
      (tests : ran = compile ++ (req.tests.zip outs).map (testExecution (self.runSpec lang req))) :
      Executed self req lang ran (finalResult req.tests.length compileOutput
        (self.executedRun req [] none (req.tests.zip outs)))

/-- After the compile step, a run that returns a result has executed a prefix of the tests. -/
theorem runTests_executes {lang : Language} {req : JudgeRequest} {progress : Bool}
    {compileOutput : Option String} {transcript : List (Exchange Call.Answer)}
    {result : JudgeResult}
    (follows : Follows (self.runTests lang req progress compileOutput).run transcript
      (.pure (.ok result))) :
    ∃ outs, Extent req req.tests outs ∧
      executions transcript =
        (req.tests.zip outs).map (testExecution (self.runSpec lang req)) ∧
      result = finalResult req.tests.length compileOutput
        (self.executedRun req [] none (req.tests.zip outs)) := by
  rw [runTests_run] at follows
  obtain ⟨later, follows, same⟩ := follows_told follows
  obtain ⟨before, after, answer, rfl, loop, finish⟩ := Follows.of_bind follows
  obtain ⟨rfl, done⟩ := Follows.of_pure finish
  cases answer with
  | error e => cases done
  | ok executed =>
    cases done
    obtain ⟨outs, extent, ran, rfl⟩ := self.runLoop_returns (Or.inl rfl) loop
    refine ⟨outs, extent, ?_, rfl⟩
    rw [same, List.append_nil, ran]

theorem runTests_returns {lang : Language} {req : JudgeRequest} {progress : Bool}
    {compile : List Execution} {compileOutput : Option String}
    {transcript : List (Exchange Call.Answer)} {result : JudgeResult}
    (compiled : Compiled self lang compile compileOutput)
    (follows : Follows (self.runTests lang req progress compileOutput).run transcript
      (.pure (.ok result))) :
    Executed self req lang (compile ++ executions transcript) result := by
  obtain ⟨outs, extent, ran, rfl⟩ := runTests_executes follows
  exact .tested compiled extent (by rw [ran])

theorem judgeInBox_returns {lang : Language} {req : JudgeRequest} {progress : Bool}
    {transcript : List (Exchange Call.Answer)} {result : JudgeResult}
    (follows : Follows (self.judgeInBox lang req progress).run transcript (.pure (.ok result))) :
    Executed self req lang (executions transcript) result := by
  rw [judgeInBox_run] at follows
  cases follows with
  | call later =>
  obtain ⟨_, rfl, written⟩ := follows_onAnswer later
  unfold afterWrite at written
  cases compile : lang.compile with
  | none =>
    rw [compile] at written
    exact runTests_returns (.interpreted compile) written
  | some step =>
    rw [compile] at written
    obtain ⟨transcript, compiling, same⟩ := follows_told written
    rw [executions_writeFile, same]
    cases compiling with
    | call later =>
    obtain ⟨out, rfl, compiled⟩ := follows_onAnswer later
    unfold afterCompile at compiled
    simp only [] at compiled
    by_cases ok : out.status = .ok
    · rw [if_pos ok] at compiled
      exact runTests_returns (.compiled compile ok) compiled
    · rw [if_neg ok] at compiled
      obtain ⟨rfl, done⟩ := Follows.of_pure compiled
      cases done
      exact .compileFailed compile rfl ok

/-- **What a run of `judge` that returns a result has executed.** -/
theorem judge_executes {req : JudgeRequest} {progress : Bool}
    {transcript : List (Exchange Call.Answer)} {result : JudgeResult}
    (follows : Follows (self.judge req progress) transcript (.pure (.ok result))) :
    ∃ lang, self.languages.get req.language = some lang ∧
      Executed self req lang (executions transcript) result := by
  cases known : self.languages.get req.language with
  | none =>
    rw [judge_of_unknown self req progress known] at follows
    obtain ⟨_, same⟩ := Follows.of_pure follows
    cases same
  | some lang =>
    refine ⟨lang, rfl, ?_⟩
    rw [judge_of_known self req progress known] at follows
    cases follows with
    | @call _ _ answer transcript _ follows =>
    cases answer with
    | error e =>
      obtain ⟨_, same⟩ := Follows.of_pure follows
      cases same
    | ok done =>
      obtain ⟨before, after, answer, rfl, inBox, finish⟩ := Follows.of_bind follows
      cases finish with
      | call finish =>
      obtain ⟨rfl, same⟩ := Follows.of_pure finish
      cases answer with
      | error e => cases same
      | ok boxed =>
        cases same
        show Executed self req lang (executions (before ++ _)) _
        rw [executions_append]
        simp only [executions, List.append_nil]
        exact judgeInBox_returns inBox

/-- `judge` reports an unknown language only when it does not know the language. -/
theorem judge_unknownLanguage {req : JudgeRequest} {progress : Bool}
    {transcript : List (Exchange Call.Answer)} {language : String}
    (follows : Follows (self.judge req progress) transcript
      (.pure (.error (.unknownLanguage language)))) :
    self.languages.get req.language = none := by
  by_contra known
  obtain ⟨lang, known⟩ := Option.ne_none_iff_exists'.mp known
  rw [judge_of_known self req progress known] at follows
  cases follows with
  | @call _ _ answer transcript _ follows =>
  cases answer with
  | error e => cases (Follows.of_pure follows).2
  | ok done =>
    obtain ⟨_, _, answer, _, _, finish⟩ := Follows.of_bind follows
    cases finish with
    | call finish =>
    obtain ⟨_, same⟩ := Follows.of_pure finish
    cases answer <;> cases same

/-! ### Verdicts -/

/-- The overall verdict is acceptance or the verdict of an executed test. -/
theorem finalResult_verdict (req : JudgeRequest) (total : Nat) (compileOutput : Option String)
    (pairs : List (TestCase × ExecOutcome)) :
    (finalResult total compileOutput (self.executedRun req [] none pairs)).verdict = .accepted ∨
      ∃ pair ∈ pairs, (finalResult total compileOutput
        (self.executedRun req [] none pairs)).verdict =
          (classify pair.2 pair.1 req.comparer).1 := by
  simp only [finalResult]
  rw [executedRun_verdicts, List.map_nil, List.nil_append]
  cases first : List.find? _ (List.map _ _) with
  | none => exact Or.inl rfl
  | some verdict =>
    obtain ⟨pair, inside, rfl⟩ := List.mem_map.mp (List.mem_of_find?_eq_some first)
    exact Or.inr ⟨pair, inside, rfl⟩

section Executed

variable {req : JudgeRequest} {lang : Language} {ran : List Execution} {result : JudgeResult}

/-- **Judging never ends in an internal error**: infrastructure failures are no verdicts. -/
theorem Executed.verdict_ne_internalError (executed : Executed self req lang ran result) :
    result.verdict ≠ .internalError := by
  cases executed with
  | compileFailed _ _ _ => exact Verdict.noConfusion
  | tested _ _ _ =>
    rcases self.finalResult_verdict req _ _ _ with accepted | ⟨pair, _, same⟩
    · rw [accepted]
      exact Verdict.noConfusion
    · rw [same]
      exact classify_ne.1

theorem Executed.testsTotal (executed : Executed self req lang ran result) :
    result.testsTotal = req.tests.length := by
  cases executed <;> rfl

/-- **Accepted means that every test was executed and passed**, after the compile step if there is
one. -/
theorem Executed.accepted (executed : Executed self req lang ran result)
    (accepted : result.verdict = .accepted) :
    result.tests.length = req.tests.length ∧ result.failedTest = none ∧
      ∃ compile compileOutput outs, Compiled self lang compile compileOutput ∧
        ran = compile ++ (req.tests.zip outs).map (testExecution (self.runSpec lang req)) ∧
        List.Forall₂ (Passed req.comparer) req.tests outs := by
  cases executed with
  | compileFailed _ _ _ => cases accepted
  | @tested compile compileOutput outs compiled extent tests =>
    have verdicts : ∀ pair ∈ req.tests.zip outs,
        (classify pair.2 pair.1 req.comparer).1 = .accepted := by
      intro pair inside
      by_contra fails
      have found : (List.find? (· != Verdict.accepted) ((req.tests.zip outs).map
          fun pair => (classify pair.2 pair.1 req.comparer).1)).isSome := by
        rw [List.find?_isSome]
        exact ⟨_, List.mem_map_of_mem inside, bne_iff_ne.mpr fails⟩
      obtain ⟨verdict, first⟩ := Option.isSome_iff_exists.mp found
      have overall : (List.find? (· != Verdict.accepted) (List.map TestResult.verdict
          (self.executedRun req [] none (req.tests.zip outs)).1)).getD .accepted = .accepted :=
        accepted
      rw [executedRun_verdicts, List.map_nil, List.nil_append, first, Option.getD_some] at overall
      have other := List.find?_some first
      rw [overall] at other
      exact absurd other (by decide)
    have all : outs.length = req.tests.length := extent.all_of_accepted verdicts
    refine ⟨?_, self.executedRun_failedTest verdicts, compile, compileOutput, outs, compiled, tests,
      ?_⟩
    · have lengths := congrArg List.length
        (self.executedRun_verdicts req [] none (req.tests.zip outs))
      simp only [List.length_map, List.map_nil, List.nil_append, List.length_zip, all,
        Nat.min_self] at lengths
      exact lengths
    · rw [List.forall₂_iff_zip]
      exact ⟨all.symm, fun inside => classify_accepted.mp (verdicts _ inside)⟩

end Executed

/-! ### What is executed -/

/-- A run executes its compile step, without input, and the tests of its request. -/
def Executes (self : Judge) (lang : Language) (req : JudgeRequest) : Call → Prop
  | .exec spec stdin => (∃ step, lang.compile = some step ∧
        spec = self.compileSpec lang step ∧ stdin = []) ∨
      ∃ test ∈ req.tests, spec = self.runSpec lang req ∧ stdin = test.input
  | _ => True

section Executes

variable {self : Judge} {lang : Language} {req : JudgeRequest} {progress : Bool}

omit [Host] in
theorem allCalls_told {α : Type} {event : Progress} {program : JudgeM α}
    (all : AllCalls (Executes self lang req) program) :
    AllCalls (Executes self lang req) (told progress event program) := by
  unfold told
  split
  · exact .call trivial fun _ => all
  · exact all

omit [Host] in
theorem allCalls_onAnswer {α β : Type} {next : β → JudgeM (Except SandboxError α)}
    (all : ∀ value, AllCalls (Executes self lang req) (next value))
    (answer : Except SandboxError β) :
    AllCalls (Executes self lang req) (onAnswer next answer) := by
  cases answer with
  | ok value => exact all value
  | error e => exact .pure _

theorem runLoop_allCalls {total i : Nat} {results : List TestResult} {failedTest : Option String}
    {tests : List TestCase} (own : ∀ test ∈ tests, test ∈ req.tests) :
    AllCalls (Executes self lang req)
      (self.runLoop req progress (self.runSpec lang req) total i results failedTest tests).run := by
  induction tests generalizing i results failedTest with
  | nil => exact .pure _
  | cons test rest ih =>
    rw [runLoop_cons]
    refine .call (Or.inr ⟨test, own test List.mem_cons_self, rfl, rfl⟩) fun answer => ?_
    refine allCalls_onAnswer (fun out => allCalls_told ?_) answer
    split
    · exact .pure _
    · exact ih fun test inside => own test (List.mem_cons_of_mem _ inside)

theorem runTests_allCalls {compileOutput : Option String} :
    AllCalls (Executes self lang req) (self.runTests lang req progress compileOutput).run := by
  rw [runTests_run]
  exact allCalls_told ((runLoop_allCalls fun _ inside => inside).bind fun _ => .pure _)

theorem afterWrite_allCalls :
    AllCalls (Executes self lang req) (self.afterWrite lang req progress) := by
  unfold afterWrite
  cases compiled : lang.compile with
  | none => exact runTests_allCalls
  | some step =>
    refine allCalls_told (.call (Or.inl ⟨step, compiled, rfl, rfl⟩) fun answer => ?_)
    refine allCalls_onAnswer (fun out => ?_) answer
    unfold afterCompile
    simp only []
    split
    · exact runTests_allCalls
    · exact .pure _

/-- **Every command of a run** is its compile step or one of its tests. -/
theorem judge_allCalls (known : self.languages.get req.language = some lang) :
    AllCalls (Executes self lang req) (self.judge req progress) := by
  rw [judge_of_known self req progress known]
  refine .call trivial fun acquired => ?_
  cases acquired with
  | error e => exact .pure _
  | ok done =>
    show AllCalls _ (Program.bind _ _)
    rw [judgeInBox_run]
    refine AllCalls.bind (.call trivial fun answer => ?_) fun _ => .call trivial fun _ => .pure _
    exact allCalls_onAnswer (fun _ => afterWrite_allCalls) answer

end Executes

end Judge

end Codexec
