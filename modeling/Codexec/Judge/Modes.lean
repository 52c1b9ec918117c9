/-
**One full run tells the result of every mode.**

A request is judged for a run, for a submission or from the command line; the modes differ in
`stop_on_first_failure`, `capture_output` and `show_failed_input`, and in whether somebody listens.
If the commands have the same outcomes as far as two runs go, what any mode returns is read off the
result that runs everything and shows everything (`presented`): the tests through the first failure
(`through`), without the excerpts that the mode does not show (`redact`).

* `recorded_redact`, `recorded_through` — the loop with the two changes, by induction on the
  executed tests.
* `modes_agree` — the result of a mode is the full one, presented in it.
-/

import Codexec.Judge.Stopping

namespace Codexec

open Codexec.Library Program

/-! ### Through the first failure -/

section Through

variable {α β : Type} (fails : α → Bool)

/-- The elements up to and including the first that fails. -/
def through : List α → List α
  | [] => []
  | first :: rest => if fails first then [first] else first :: through rest

/-- The first that fails is among them. -/
theorem find?_through (elements : List α) : (through fails elements).find? fails =
    elements.find? fails := by
  induction elements with
  | nil => rfl
  | cons first rest ih =>
    simp only [through]
    by_cases here : fails first = true
    · rw [if_pos here, List.find?_cons_of_pos here, List.find?_cons_of_pos here]
    · rw [if_neg here, List.find?_cons_of_neg here, List.find?_cons_of_neg here, ih]

end Through

/-! ### Results in a mode -/

namespace TestResult

def failed (self : TestResult) : Bool := self.verdict != .accepted

/-- Without input, expected output and output, and without messages of programs that did not crash. -/
def withheld (self : TestResult) : TestResult :=
  { self with
    input := none
    expected := none
    stdout := none
    stderr := if self.verdict == .runtimeError then self.stderr else none }

end TestResult

theorem withheld_withheld (test : TestResult) : test.withheld.withheld = test.withheld := by
  unfold TestResult.withheld
  cases test.verdict <;> rfl

/-- What a mode shows of the results; the flag says that a test has failed before. -/
def redact (captures shows : Bool) : Bool → List TestResult → List TestResult
  | _, [] => []
  | before, test :: rest =>
    (if captures || (test.failed && !before && shows) then test else test.withheld) ::
      redact captures shows (before || test.failed) rest

/-- What a view sees that does not see excerpts. -/
theorem redact_map {β : Type} {view : TestResult → β}
    (blind : ∀ test : TestResult, view test.withheld = view test) (captures shows before : Bool)
    (tests : List TestResult) : (redact captures shows before tests).map view = tests.map view := by
  induction tests generalizing before with
  | nil => rfl
  | cons test rest ih =>
    rw [redact, List.map_cons, List.map_cons, ih]
    split
    · rfl
    · rw [blind]

/-- The result that a mode presents, of one that has all tests and excerpts. -/
def JudgeResult.presented (full : JudgeResult) (stops captures shows : Bool) : JudgeResult :=
  let tests := if stops then through TestResult.failed full.tests else full.tests
  { full with
    timeMs := (tests.map TestResult.timeMs).max?.getD 0
    memoryKb := (tests.map TestResult.memoryKb).max?.getD 0
    tests := redact captures shows false tests }

/-- The result, without what a mode may withhold. -/
def JudgeResult.bare (self : JudgeResult) : JudgeResult :=
  { self with tests := self.tests.map TestResult.withheld }

/-- The same request in another mode. -/
def JudgeRequest.mode (req : JudgeRequest) (stops captures shows : Bool) : JudgeRequest :=
  { req with
    stopOnFirstFailure := stops
    captureOutput := captures
    showFailedInput := shows }

namespace Judge

variable [Host] {self : Judge} {req : JudgeRequest} {lang : Language}

/-! ### The loop in two modes -/

/-- The results of executed tests, when a test may have failed before. -/
def recorded (self : Judge) (req : JudgeRequest) : Option String →
    List (TestCase × ExecOutcome) → List TestResult
  | _, [] => []
  | failedTest, (test, out) :: rest =>
    self.testResult req failedTest test out ::
      self.recorded req (nextFailed req failedTest test out) rest

theorem executedRun_recorded (results : List TestResult) (failedTest : Option String)
    (pairs : List (TestCase × ExecOutcome)) :
    (self.executedRun req results failedTest pairs).1 =
      results ++ self.recorded req failedTest pairs := by
  induction pairs generalizing results failedTest with
  | nil => exact (List.append_nil _).symm
  | cons pair rest ih =>
    rw [executedRun, ih, List.append_assoc]
    rfl

/-- The test of the pair was executed and not accepted. -/
def pairFails (req : JudgeRequest) (pair : TestCase × ExecOutcome) : Bool :=
  (classify pair.2 pair.1 req.comparer).1 != .accepted

theorem failed_testResult (failedTest : Option String) (pair : TestCase × ExecOutcome) :
    (self.testResult req failedTest pair.1 pair.2).failed = pairFails req pair := rfl

/-- A test has failed so far. -/
theorem isSome_nextFailed (failedTest : Option String) (pair : TestCase × ExecOutcome) :
    (nextFailed req failedTest pair.1 pair.2).isSome = (failedTest.isSome || pairFails req pair) := by
  unfold nextFailed firstFailure
  cases failedTest with
  | none => cases fails : pairFails req pair <;> simp_all [pairFails]
  | some name => simp

/-- **A mode withholds from one result** what it does not show. -/
theorem testResult_mode (stops captures shows stops' shows' : Bool) (failedTest : Option String)
    (pair : TestCase × ExecOutcome) :
    self.testResult (req.mode stops captures shows) failedTest pair.1 pair.2 =
      let full := self.testResult (req.mode stops' true shows') failedTest pair.1 pair.2
      if captures || (full.failed && !failedTest.isSome && shows) then full else full.withheld := by
  have first : firstFailure (req.mode stops captures shows) failedTest pair.1 pair.2 =
      (pairFails req pair && !failedTest.isSome) := by
    cases failedTest <;> rfl
  simp only [failed_testResult]
  show _ = if (captures || (pairFails req pair && !failedTest.isSome && shows)) = true then _ else _
  unfold testResult TestResult.withheld
  rw [first]
  simp only [JudgeRequest.mode, Bool.true_or, if_true]
  by_cases shown : (captures || (pairFails req pair && !failedTest.isSome && shows)) = true
  · simp only [shown, Bool.true_or, if_true]
  · rw [Bool.not_eq_true] at shown
    simp only [shown, Bool.false_or, Bool.false_eq_true, if_false]
    cases (classify pair.2 pair.1 req.comparer).1 <;> rfl

theorem recorded_redact (stops captures shows stops' shows' : Bool) (failedTest : Option String)
    (pairs : List (TestCase × ExecOutcome)) :
    self.recorded (req.mode stops captures shows) failedTest pairs =
      redact captures shows failedTest.isSome
        (self.recorded (req.mode stops' true shows') failedTest pairs) := by
  induction pairs generalizing failedTest with
  | nil => rfl
  | cons pair rest ih =>
    obtain ⟨test, out⟩ := pair
    have same : nextFailed (req.mode stops captures shows) failedTest test out =
        nextFailed (req.mode stops' true shows') failedTest test out := rfl
    rw [recorded, recorded, redact, ih, testResult_mode stops captures shows stops' shows'
      failedTest (test, out), same, isSome_nextFailed failedTest (test, out)]
    rfl

/-- The results through the first failure are those of the tests through it. -/
theorem recorded_through (failedTest : Option String) (pairs : List (TestCase × ExecOutcome)) :
    self.recorded req failedTest (through (pairFails req) pairs) =
      through TestResult.failed (self.recorded req failedTest pairs) := by
  induction pairs generalizing failedTest with
  | nil => rfl
  | cons pair rest ih =>
    obtain ⟨test, out⟩ := pair
    rw [recorded, through, through, failed_testResult failedTest (test, out)]
    by_cases fails : pairFails req (test, out) = true
    · rw [if_pos fails, if_pos fails]
      rfl
    · rw [if_neg fails, if_neg fails, recorded, ih]

/-! ### The executed tests of two modes -/

/-- **The tests of a run that stops** are those through the first failure. -/
theorem Extent.through {req' : JudgeRequest} {spec spec' : ExecSpec} {tests : List TestCase}
    {outs outs' : List ExecOutcome} (stops : req.stopOnFirstFailure = true)
    (extent : Extent req tests outs) (runs : req'.stopOnFirstFailure = false)
    (full : Extent req' tests outs')
    (agree : Agree ((tests.zip outs).map (testExecution spec))
      ((tests.zip outs').map (testExecution spec'))) :
    tests.zip outs = Codexec.through (pairFails req) (tests.zip outs') := by
  induction extent generalizing outs' with
  | nil => rfl
  | @stop test rest out fails stops' =>
    cases full with
    | stop fails' stops'' => cases runs.symm.trans stops''
    | @next _ _ out' outs' goesOn later =>
      have same : Except.ok out = Except.ok out' := agree.head
      cases same
      have here : pairFails req (test, out) = true := bne_iff_ne.mpr fails
      rw [List.zip_cons_cons, List.zip_cons_cons, Codexec.through, if_pos here, List.zip_nil_right]
  | @next test rest out outs goesOn later ih =>
    cases full with
    | stop fails' stops'' => cases runs.symm.trans stops''
    | @next _ _ out' outs' goesOn' later' =>
      have same : Except.ok out = Except.ok out' := agree.head
      cases same
      have here : ¬ pairFails req (test, out) = true := by
        rcases goesOn with accepted | never
        · simp [pairFails, accepted]
        · cases stops.symm.trans never
      rw [List.zip_cons_cons, List.zip_cons_cons, Codexec.through, if_neg here,
        ih later' agree.tail]

/-- **The tests of two runs that both stop, or both do not,** are the same. -/
theorem Extent.same {req' : JudgeRequest} {spec spec' : ExecSpec} {tests : List TestCase}
    {outs outs' : List ExecOutcome} (extent : Extent req tests outs)
    (extent' : Extent req' tests outs') (stops : req'.stopOnFirstFailure = req.stopOnFirstFailure)
    (compares : req'.comparer = req.comparer)
    (agree : Agree ((tests.zip outs).map (testExecution spec))
      ((tests.zip outs').map (testExecution spec'))) : outs = outs' := by
  induction extent generalizing outs' with
  | nil =>
    cases extent'
    rfl
  | @stop test rest out fails stopped =>
    cases extent' with
    | @stop _ _ out' fails' stopped' =>
      have same : Except.ok out = Except.ok out' := agree.head
      cases same
      rfl
    | @next _ _ out' outs' goesOn' later' =>
      have same : Except.ok out = Except.ok out' := agree.head
      cases same
      rw [compares, stops] at goesOn'
      rcases goesOn' with accepted | never
      · exact absurd accepted fails
      · cases stopped.symm.trans never
  | @next test rest out outs goesOn later ih =>
    cases extent' with
    | @stop _ _ out' fails' stopped' =>
      have same : Except.ok out = Except.ok out' := agree.head
      cases same
      rw [← compares, ← stops] at goesOn
      rcases goesOn with accepted | never
      · exact absurd accepted fails'
      · cases stopped'.symm.trans never
    | @next _ _ out' outs' goesOn' later' =>
      have same : Except.ok out = Except.ok out' := agree.head
      cases same
      rw [ih later' agree.tail]

/-! ### The two results -/

/-- The tests of a result in a mode, from all the tests. -/
theorem recorded_mode {stops : Bool} (captures shows shows' : Bool)
    {pairs pairs' : List (TestCase × ExecOutcome)}
    (part : pairs = if stops then through (pairFails req) pairs' else pairs') :
    self.recorded (req.mode stops captures shows) none pairs =
      redact captures shows false
        (if stops then through TestResult.failed (self.recorded (req.mode false true shows') none pairs')
        else self.recorded (req.mode false true shows') none pairs') := by
  rw [recorded_redact stops captures shows false shows' none pairs, part]
  cases stops with
  | true =>
    rw [if_pos rfl, if_pos rfl, ← recorded_through]
    rfl
  | false => rfl

omit [Host] in
/-- The overall verdict is that of the first test that failed. -/
theorem first_verdict (tests : List TestResult) :
    (tests.map TestResult.verdict).find? (· != .accepted) =
      (tests.find? TestResult.failed).map TestResult.verdict := List.find?_map

theorem finalResult_mode {stops : Bool} (captures shows shows' : Bool) (total : Nat)
    (compileOutput : Option String) {pairs pairs' : List (TestCase × ExecOutcome)}
    (part : pairs = if stops then through (pairFails req) pairs' else pairs') :
    finalResult total compileOutput
        (self.executedRun (req.mode stops captures shows) [] none pairs) =
      (finalResult total compileOutput
        (self.executedRun (req.mode false true shows') [] none pairs')).presented
          stops captures shows := by
  have tests : self.recorded (req.mode stops captures shows) none pairs = _ :=
    recorded_mode captures shows shows' part
  have verdicts := redact_map (show ∀ test : TestResult, test.withheld.verdict = test.verdict from fun _ => rfl)
    captures shows false
  have times := redact_map (show ∀ test : TestResult, test.withheld.timeMs = test.timeMs from fun _ => rfl)
    captures shows false
  have sizes := redact_map (show ∀ test : TestResult, test.withheld.memoryKb = test.memoryKb from fun _ => rfl)
    captures shows false
  have failures : firstFailed (req.mode stops captures shows) pairs =
      firstFailed (req.mode false true shows') pairs' := by
    rw [part]
    cases stops with
    | true => exact find?_through (pairFails req) pairs'
    | false => rfl
  unfold finalResult JudgeResult.presented
  simp only [executedRun_recorded, executedRun_failed, List.nil_append, tests, verdicts, times,
    sizes, failures, first_verdict]
  cases stops with
  | true => simp only [if_true, find?_through]
  | false => rfl

/-- Without what modes withhold, the result is that of every mode. -/
theorem finalResult_bare (stops captures shows : Bool) (total : Nat)
    (compileOutput : Option String) (pairs : List (TestCase × ExecOutcome)) :
    (finalResult total compileOutput
        (self.executedRun (req.mode stops captures shows) [] none pairs)).bare =
      (finalResult total compileOutput
        (self.executedRun (req.mode false true true) [] none pairs)).bare := by
  have tests : self.recorded (req.mode stops captures shows) none pairs = _ :=
    recorded_redact stops captures shows false true none pairs
  have bare := redact_map withheld_withheld captures shows false
  have verdicts := redact_map (show ∀ test : TestResult, test.withheld.verdict = test.verdict from fun _ => rfl)
    captures shows false
  have times := redact_map (show ∀ test : TestResult, test.withheld.timeMs = test.timeMs from fun _ => rfl)
    captures shows false
  have sizes := redact_map (show ∀ test : TestResult, test.withheld.memoryKb = test.memoryKb from fun _ => rfl)
    captures shows false
  unfold finalResult JudgeResult.bare
  simp only [executedRun_recorded, executedRun_failed, List.nil_append, tests, Option.isSome_none,
    bare, verdicts, times, sizes]
  rfl

/-- The executed tests of two runs, after the same compile step. -/
theorem Executed.presented {ran ran' : List Execution} {result full : JudgeResult}
    {stops captures shows shows' : Bool}
    (executed : Executed self (req.mode stops captures shows) lang ran result)
    (executed' : Executed self (req.mode false true shows') lang ran' full)
    (agree : Agree ran ran') : result = full.presented stops captures shows := by
  cases executed with
  | @compileFailed step out found compile failed =>
    cases executed' with
    | @compileFailed step' out' found' compile' failed' =>
      subst compile compile'
      have same : Except.ok out = Except.ok out' := agree.head
      cases same
      cases stops <;> rfl
    | tested compiled extent tests =>
      subst compile tests
      exact absurd agree (compiled.disagree found failed)
  | @tested compile compileOutput outs compiled extent tests =>
    cases executed' with
    | compileFailed found' compile' failed' =>
      subst tests compile'
      exact absurd agree.symm (compiled.disagree found' failed')
    | @tested compile' compileOutput' outs' compiled' extent' tests' =>
      subst tests tests'
      obtain ⟨rfl, agree⟩ := compiled.agree compiled' agree
      refine finalResult_mode captures shows shows' _ _ ?_
      cases stops with
      | true =>
        show _ = through (pairFails (req.mode true captures shows)) _
        exact Extent.through rfl extent rfl extent' agree
      | false => exact congrArg _ (extent.same extent' rfl rfl agree)

/-- **What a mode shows changes nothing else**: two runs that both stop, or both do not, return the
same result up to what is withheld. -/
theorem Executed.bare {ran ran' : List Execution} {result result' : JudgeResult}
    {stops captures shows captures' shows' : Bool}
    (executed : Executed self (req.mode stops captures shows) lang ran result)
    (executed' : Executed self (req.mode stops captures' shows') lang ran' result')
    (agree : Agree ran ran') : result.bare = result'.bare := by
  cases executed with
  | @compileFailed step out found compile failed =>
    cases executed' with
    | @compileFailed step' out' found' compile' failed' =>
      subst compile compile'
      have same : Except.ok out = Except.ok out' := agree.head
      cases same
      rfl
    | tested compiled extent tests =>
      subst compile tests
      exact absurd agree (compiled.disagree found failed)
  | @tested compile compileOutput outs compiled extent tests =>
    cases executed' with
    | compileFailed found' compile' failed' =>
      subst tests compile'
      exact absurd agree.symm (compiled.disagree found' failed')
    | @tested compile' compileOutput' outs' compiled' extent' tests' =>
      subst tests tests'
      obtain ⟨rfl, agree⟩ := compiled.agree compiled' agree
      obtain rfl := extent.same extent' rfl rfl agree
      rw [finalResult_bare stops captures shows, finalResult_bare stops captures' shows']
      rfl

/-- **One full run tells the result of every mode.** If a request was judged in some mode, and once
with all the tests and excerpts, by commands with the same outcomes as far as both runs go, then the
first result is the second one, presented in the mode. -/
theorem modes_agree {stops captures shows shows' progress progress' : Bool}
    {transcript transcript' : List (Exchange Call.Answer)} {result full : JudgeResult}
    (follows : Follows (self.judge (req.mode stops captures shows) progress) transcript
      (.pure (.ok result)))
    (follows' : Follows (self.judge (req.mode false true shows') progress') transcript'
      (.pure (.ok full)))
    (agree : Agree (executions transcript) (executions transcript')) :
    result = full.presented stops captures shows := by
  obtain ⟨lang, known, executed⟩ := judge_executes follows
  obtain ⟨lang', known', executed'⟩ := judge_executes follows'
  have same : some lang = some lang' := known.symm.trans known'
  cases same
  exact executed.presented executed' agree

end Judge

open Judge

/-- The second of three tests fails: a client of the server is shown two of them. -/
theorem modes_agree_sample :
    letI := plainHost
    ∃ result full, sampleJudge.result ((mixedRequest "python").mode true false true) true
        (sampleSandbox .ok "2\n" "") = .ok result ∧
      sampleJudge.result ((mixedRequest "python").mode false true true) false
        (sampleSandbox .ok "2\n" "") = .ok full ∧ result = full.presented true false true ∧
      result.tests.length = 2 ∧ full.tests.length = 3 := by
  let host := plainHost
  have follows (stops captures progress : Bool) := follows_transcript (sampleSandbox .ok "2\n" "") []
    (sampleJudge.judge ((mixedRequest "python").mode stops captures true) progress)
  exact ⟨_, _, rfl, rfl, modes_agree (follows true false true) (follows false true false)
    (sampleSandbox_agree _ _ _ _ _), rfl, rfl⟩

end Codexec
