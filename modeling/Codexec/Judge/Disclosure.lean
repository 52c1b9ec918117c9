/-
**What the output of a hidden test discloses.**

Two sandboxes that agree on everything the judge decides by — the status, the CPU time, the memory
and the comparison of every test — but not on the bytes the program prints. Without capturing and
without showing failed inputs, the results agree in everything except the stderr excerpt of tests
that ended in a runtime error, which is attached on purpose (`testResult`). The induction follows
the loop; `SameTests` says which calls of which histories the two sandboxes are compared on.
-/

import Codexec.Judge.Execution

namespace Codexec

open Codexec.Library Program

/-! ### Two sandboxes side by side -/

/-- Two outcomes of a test that differ at most in the output. -/
structure SameOutcome [Host] (comparer : Comparer) (test : TestCase) (out out' : ExecOutcome) :
    Prop where
  status : out'.status = out.status
  cpuTimeMs : out'.cpuTimeMs = out.cpuTimeMs
  memoryKb : out'.memoryKb = out.memoryKb
  compared : out.status = .ok → ∀ expected, test.expected = some expected →
    compare comparer expected out'.stdout = compare comparer expected out.stdout

/-- A run that ended with a failing exit code or a signal. -/
def ExecStatus.isRuntimeError : ExecStatus → Bool
  | .nonZeroExit _ => true
  | .signaled _ => true
  | _ => false

/-- The same failure of the sandbox, or outcomes that `same` relates. -/
inductive SameAnswer (same : ExecOutcome → ExecOutcome → Prop) :
    Except SandboxError ExecOutcome → Except SandboxError ExecOutcome → Prop
  | error (e : SandboxError) : SameAnswer same (.error e) (.error e)
  | ok {out out' : ExecOutcome} (outcomes : same out out') : SameAnswer same (.ok out) (.ok out')

theorem map_mapError {ε ε' α β : Type} (answer : Except ε α) (error : ε → ε') (value : α → β) :
    (answer.mapError error).map value = (answer.map value).mapError error := by
  cases answer <;> rfl

namespace Judge

variable [Host] (self : Judge)

/-- The two sandboxes answer every test execution alike, as far as the run goes: `history` holds
the calls made before the first of `tests`, and `same` relates the outcomes of a test. -/
def SameTests (same : TestCase → ExecOutcome → ExecOutcome → Prop)
    (sandbox sandbox' : Environment Call.Answer) (req : JudgeRequest) (progress : Bool)
    (spec : ExecSpec) (total : Nat) : Nat → Option String → List Call → List TestCase → Prop
  | _, _, _, [] => True
  | i, failedTest, history, test :: rest =>
    SameAnswer (same test) (sandbox history (.exec spec test.input))
        (sandbox' history (.exec spec test.input)) ∧
      ∀ out, sandbox history (.exec spec test.input) = .ok out →
        (firstFailure req failedTest test out && req.stopOnFirstFailure) = false →
        SameTests same sandbox sandbox' req progress spec total (i + 1)
          (nextFailed req failedTest test out)
          ((history ++ [.exec spec test.input]) ++ toldCalls progress (.running (i + 1) total)) rest

/-- Two sandboxes that give the same box, the same compile outcome, and alike tests. -/
structure SameBehaviour (judge : Judge) (same : TestCase → ExecOutcome → ExecOutcome → Prop)
    (sandbox sandbox' : Environment Call.Answer) (lang : Language) (req : JudgeRequest)
    (progress : Bool) : Prop where
  acquire : sandbox' [] .acquire = sandbox [] .acquire
  writeFile : sandbox' [.acquire] (.writeFile lang.sourceFile (utf8 req.source)) =
    sandbox [.acquire] (.writeFile lang.sourceFile (utf8 req.source))
  compile : ∀ step, lang.compile = some step →
    sandbox' (callsToCompile lang req progress) (.exec (judge.compileSpec lang step) []) =
      sandbox (callsToCompile lang req progress) (.exec (judge.compileSpec lang step) [])
  tests : (∀ step, lang.compile = some step → ∃ out,
      sandbox (callsToCompile lang req progress) (.exec (judge.compileSpec lang step) []) = .ok out ∧
        out.status = .ok) →
    SameTests same sandbox sandbox' req progress (judge.runSpec lang req) req.tests.length 0 none
      (judge.callsToTests lang req progress) req.tests

/-! ### One test -/

section Test

variable {req : JudgeRequest} {failedTest : Option String} {test : TestCase}
  {out out' : ExecOutcome}

/-- The verdict and the message depend on the output only through the comparison. -/
theorem classify_same (same : SameOutcome req.comparer test out out') :
    classify out' test req.comparer = classify out test req.comparer := by
  unfold classify
  rw [same.status]
  cases status : out.status with
  | ok =>
    cases expected : test.expected with
    | none => rfl
    | some answer =>
      simp only []
      rw [same.compared status answer expected]
  | _ => rfl

theorem firstFailure_same (same : SameOutcome req.comparer test out out') :
    firstFailure req failedTest test out' = firstFailure req failedTest test out := by
  rw [firstFailure, firstFailure, classify_same same]

theorem nextFailed_same (same : SameOutcome req.comparer test out out') :
    nextFailed req failedTest test out' = nextFailed req failedTest test out := by
  rw [nextFailed, nextFailed, firstFailure_same same]

/-- A recorded result without its stderr. -/
def withoutStderr (result : TestResult) : TestResult := { result with stderr := none }

/-- The input, the answer and the output are left out. -/
structure Hidden (result : TestResult) : Prop where
  input : result.input = none
  expected : result.expected = none
  stdout : result.stdout = none
  stderr : result.verdict ≠ .runtimeError → result.stderr = none

section Unshown

variable (captures : req.captureOutput = false) (shows : req.showFailedInput = false)

include captures shows

/-- **A recorded result hides everything but the stderr of a runtime error.** -/
theorem testResult_hidden : Hidden (self.testResult req failedTest test out) := by
  refine ⟨?_, ?_, ?_, ?_⟩
  · simp [testResult, captures, shows]
  · simp [testResult, captures, shows]
  · simp [testResult, captures, shows]
  · intro other
    have verdict : (classify out test req.comparer).1 ≠ .runtimeError := other
    simp [testResult, captures, shows, verdict]

theorem testResult_same_but_stderr (same : SameOutcome req.comparer test out out') :
    withoutStderr (self.testResult req failedTest test out') =
      withoutStderr (self.testResult req failedTest test out) := by
  simp [testResult, withoutStderr, captures, shows, classify_same same, same.cpuTimeMs,
    same.memoryKb]

/-- With the same excerpts of stderr the recorded results are the same. -/
theorem testResult_same (same : SameOutcome req.comparer test out out')
    (errors : out.status.isRuntimeError = true → excerpt out'.stderr self.cfg.excerptBytes =
      excerpt out.stderr self.cfg.excerptBytes) :
    self.testResult req failedTest test out' = self.testResult req failedTest test out := by
  have verdict : (classify out test req.comparer).1 = .runtimeError →
      excerpt out'.stderr self.cfg.excerptBytes = excerpt out.stderr self.cfg.excerptBytes := by
    intro failed
    apply errors
    unfold classify at failed
    cases status : out.status with
    | nonZeroExit code => rfl
    | signaled signal => rfl
    | ok =>
      rw [status] at failed
      cases expected : test.expected with
      | none =>
        rw [expected] at failed
        cases failed
      | some answer =>
        rw [expected] at failed
        simp only [] at failed
        split at failed <;> cases failed
    | _ =>
      rw [status] at failed
      cases failed
  by_cases failed : (classify out test req.comparer).1 = .runtimeError
  · simp [testResult, captures, shows, classify_same same, same.cpuTimeMs, same.memoryKb,
      verdict failed]
  · simp [testResult, captures, shows, classify_same same, same.cpuTimeMs, same.memoryKb, failed]

end Unshown

end Test

/-! ### The loop -/

/-- A result whose per-test results are viewed through `view`. -/
def withTests (view : TestResult → TestResult) (result : JudgeResult) : JudgeResult :=
  { result with tests := result.tests.map view }

/-- What the loop returns, viewed through `view`. -/
def viewRun (view : TestResult → TestResult) (executed : List TestResult × Option String) :
    List TestResult × Option String :=
  (executed.1.map view, executed.2)

section Run

variable {same : TestCase → ExecOutcome → ExecOutcome → Prop} {view : TestResult → TestResult}
  {sandbox sandbox' : Environment Call.Answer} {req : JudgeRequest} {progress : Bool}

/-- What `same` has to guarantee for `view` to see no difference. -/
structure Blind (judge : Judge) (req : JudgeRequest) (same : TestCase → ExecOutcome → ExecOutcome → Prop)
    (view : TestResult → TestResult) : Prop where
  outcome : ∀ {test out out'}, same test out out' → SameOutcome req.comparer test out out'
  recorded : ∀ {failedTest test out out'}, same test out out' →
    view (judge.testResult req failedTest test out') =
      view (judge.testResult req failedTest test out)
  verdict : ∀ result, (view result).verdict = result.verdict
  timeMs : ∀ result, (view result).timeMs = result.timeMs
  memoryKb : ∀ result, (view result).memoryKb = result.memoryKb

variable (blind : self.Blind req same view)

include blind

/-- **On alike sandboxes the two loops make the same calls and return alike results.** -/
theorem runLoop_alike {spec : ExecSpec} {total i : Nat} {history : List Call}
    {failedTest : Option String} {tests : List TestCase} {results results' : List TestResult}
    (alike : SameTests same sandbox sandbox' req progress spec total i failedTest history tests)
    (before : results'.map view = results.map view) :
    let first := run sandbox history
      (self.runLoop req progress spec total i results failedTest tests).run
    let second := run sandbox' history
      (self.runLoop req progress spec total i results' failedTest tests).run
    second.1.map (viewRun view) = first.1.map (viewRun view) ∧ second.2 = first.2 := by
  induction tests generalizing i history failedTest results results' with
  | nil =>
    refine ⟨?_, rfl⟩
    show Except.ok (viewRun view (results', _)) = Except.ok (viewRun view (results, _))
    rw [viewRun, viewRun, before]
  | cons test rest ih =>
    obtain ⟨answers, later⟩ := alike
    rw [runLoop_cons, runLoop_cons]
    simp only [run]
    generalize first : sandbox history (.exec spec test.input) = answer at answers later ⊢
    generalize second : sandbox' history (.exec spec test.input) = answer' at answers ⊢
    cases answers with
    | error e => exact ⟨rfl, rfl⟩
    | @ok out out' outcomes =>
      have same := blind.outcome outcomes
      have recorded : (results' ++ [self.testResult req failedTest test out']).map view =
          (results ++ [self.testResult req failedTest test out]).map view := by
        rw [List.map_append, List.map_append, before, List.map_singleton, List.map_singleton,
          blind.recorded outcomes]
      simp only [onAnswer]
      rw [run_told, run_told, firstFailure_same same, nextFailed_same same]
      by_cases stops : (firstFailure req failedTest test out && req.stopOnFirstFailure) = true
      · rw [if_pos stops, if_pos stops]
        refine ⟨?_, rfl⟩
        show Except.ok (viewRun view _) = Except.ok (viewRun view _)
        rw [viewRun, viewRun, recorded]
      · rw [if_neg stops, if_neg stops]
        exact ih (later out rfl (Bool.eq_false_iff.mpr stops)) recorded

theorem finalResult_withTests (total : Nat) (compileOutput : Option String)
    (executed : List TestResult × Option String) :
    withTests view (finalResult total compileOutput executed) =
      finalResult total compileOutput (viewRun view executed) := by
  have verdicts : (executed.1.map view).map TestResult.verdict =
      executed.1.map TestResult.verdict := by
    rw [List.map_map]
    exact List.map_congr_left fun result _ => blind.verdict result
  have times : (executed.1.map view).map TestResult.timeMs = executed.1.map TestResult.timeMs := by
    rw [List.map_map]
    exact List.map_congr_left fun result _ => blind.timeMs result
  have memories : (executed.1.map view).map TestResult.memoryKb =
      executed.1.map TestResult.memoryKb := by
    rw [List.map_map]
    exact List.map_congr_left fun result _ => blind.memoryKb result
  simp only [finalResult, viewRun, withTests, verdicts, times, memories]

/-- The tests of two alike sandboxes. -/
theorem runTests_alike {lang : Language} {compileOutput : Option String} {history : List Call}
    (alike : SameTests same sandbox sandbox' req progress (self.runSpec lang req) req.tests.length
      0 none (history ++ toldCalls progress (.running 0 req.tests.length)) req.tests) :
    (run sandbox' history (self.runTests lang req progress compileOutput).run).1.map
        (withTests view) =
      (run sandbox history (self.runTests lang req progress compileOutput).run).1.map
        (withTests view) := by
  rw [runTests_run, run_told, run_told, run_bind, run_bind]
  simp only [run]
  have nothing : ([] : List TestResult).map view = [].map view := rfl
  obtain ⟨values, _⟩ := self.runLoop_alike blind alike nothing
  revert values
  generalize (run sandbox _ _).1 = first
  generalize (run sandbox' _ _).1 = second
  intro values
  cases first with
  | error e =>
    cases second with
    | error e' => exact congrArg Except.error (Except.error.inj values)
    | ok _ => cases values
  | ok executed =>
    cases second with
    | error _ => cases values
    | ok executed' =>
      show Except.ok (withTests view (finalResult _ _ executed')) =
        Except.ok (withTests view (finalResult _ _ executed))
      rw [finalResult_withTests self blind, finalResult_withTests self blind,
        Except.ok.inj values]

theorem afterWrite_alike {lang : Language}
    (alike : self.SameBehaviour same sandbox sandbox' lang req progress) :
    (run sandbox' [.acquire, .writeFile lang.sourceFile (utf8 req.source)]
        (self.afterWrite lang req progress)).1.map (withTests view) =
      (run sandbox [.acquire, .writeFile lang.sourceFile (utf8 req.source)]
        (self.afterWrite lang req progress)).1.map (withTests view) := by
  obtain ⟨_, _, compile, tests⟩ := alike
  unfold callsToTests at tests
  cases found : lang.compile with
  | none =>
    rw [found] at tests
    unfold afterWrite
    rw [found]
    exact self.runTests_alike blind (tests fun _ none => nomatch none)
  | some step =>
    rw [found] at tests
    rw [self.run_afterWrite req progress sandbox found,
      self.run_afterWrite req progress sandbox' found, compile step found]
    cases answer : sandbox (callsToCompile lang req progress)
        (.exec (self.compileSpec lang step) []) with
    | error e => rfl
    | ok out =>
      simp only [onAnswer]
      unfold afterCompile
      simp only []
      by_cases ok : out.status = .ok
      · rw [if_pos ok]
        refine self.runTests_alike blind (tests ?_)
        intro step' same
        cases same
        exact ⟨out, answer, ok⟩
      · rw [if_neg ok]
        rfl

theorem judgeInBox_alike {lang : Language}
    (alike : self.SameBehaviour same sandbox sandbox' lang req progress) :
    (run sandbox' [.acquire] (self.judgeInBox lang req progress).run).1.map (withTests view) =
      (run sandbox [.acquire] (self.judgeInBox lang req progress).run).1.map (withTests view) := by
  rw [run_judgeInBox, run_judgeInBox, alike.writeFile]
  cases sandbox [.acquire] (.writeFile lang.sourceFile (utf8 req.source)) with
  | error e => rfl
  | ok done => exact self.afterWrite_alike blind alike

/-- **Alike sandboxes get alike results.** -/
theorem result_alike (alike : ∀ lang, self.languages.get req.language = some lang →
    self.SameBehaviour same sandbox sandbox' lang req progress) :
    (self.result req progress sandbox').map (withTests view) =
      (self.result req progress sandbox).map (withTests view) := by
  unfold result
  cases known : self.languages.get req.language with
  | none =>
    rw [judge_of_unknown self req progress known]
    rfl
  | some lang =>
    have behaviour := alike lang known
    cases acquired : sandbox [] .acquire with
    | error e =>
      have acquired' := behaviour.acquire.trans acquired
      rw [self.run_judge_of_refused req progress sandbox known acquired,
        self.run_judge_of_refused req progress sandbox' known acquired']
    | ok done =>
      have acquired' := behaviour.acquire.trans acquired
      rw [self.run_judge_of_acquired req progress sandbox known acquired,
        self.run_judge_of_acquired req progress sandbox' known acquired']
      simp only []
      rw [map_mapError, map_mapError, self.judgeInBox_alike blind behaviour]

end Run

/-! ### What is disclosed -/

section Disclosure

variable {sandbox sandbox' : Environment Call.Answer} {req : JudgeRequest} {progress : Bool}

/-- Outcomes that agree in the excerpt of a runtime error, too. -/
def SameErrors (req : JudgeRequest) (test : TestCase) (out out' : ExecOutcome) : Prop :=
  SameOutcome req.comparer test out out' ∧
    (out.status.isRuntimeError = true → excerpt out'.stderr self.cfg.excerptBytes =
      excerpt out.stderr self.cfg.excerptBytes)

/-- Every per-test result of a run was recorded for one of the tests. -/
theorem result_recorded {returned : JudgeResult}
    (judged : self.result req progress sandbox = .ok returned) {recorded : TestResult}
    (inside : recorded ∈ returned.tests) :
    ∃ failedTest test out, recorded = self.testResult req failedTest test out := by
  have follows := follows_transcript sandbox [] (self.judge req progress)
  rw [show (run sandbox [] (self.judge req progress)).1 = .ok returned from judged] at follows
  obtain ⟨lang, _, done⟩ := judge_executes follows
  cases done with
  | compileFailed _ _ _ => cases inside
  | tested _ _ _ =>
    rcases self.executedRun_mem inside with old | ⟨failedTest, pair, _, same⟩
    · cases old
    · exact ⟨failedTest, pair.1, pair.2, same⟩

/-- **Program output on hidden tests is disclosed only as the stderr of a runtime error.** Two
sandboxes that give the same compile outcome and, for every test execution, the same status, CPU
time, memory and comparison get the same result up to the stderr of runtime errors, and the same
result when the excerpts of that stderr agree. No input, answer or output is ever attached, and no
stderr to a test that ended in any other way. -/
theorem output_disclosed_only_on_runtime_error (captures : req.captureOutput = false)
    (shows : req.showFailedInput = false)
    (alike : ∀ lang, self.languages.get req.language = some lang →
      self.SameBehaviour (SameOutcome req.comparer) sandbox sandbox' lang req progress) :
    (self.result req progress sandbox').map (withTests withoutStderr) =
        (self.result req progress sandbox).map (withTests withoutStderr) ∧
      (∀ returned, self.result req progress sandbox = .ok returned →
        ∀ recorded ∈ returned.tests, Hidden recorded) ∧
      ((∀ lang, self.languages.get req.language = some lang →
          self.SameBehaviour (self.SameErrors req) sandbox sandbox' lang req progress) →
        self.result req progress sandbox' = self.result req progress sandbox) := by
  refine ⟨?_, ?_, ?_⟩
  · refine self.result_alike ⟨fun same => same, ?_, fun _ => rfl, fun _ => rfl, fun _ => rfl⟩ alike
    exact fun same => self.testResult_same_but_stderr captures shows same
  · intro returned judged recorded inside
    obtain ⟨failedTest, test, out, rfl⟩ := self.result_recorded judged inside
    exact self.testResult_hidden captures shows
  · intro errors
    have blind : self.Blind req (self.SameErrors req) id :=
      ⟨fun same => same.1, fun same => self.testResult_same captures shows same.1 same.2,
        fun _ => rfl, fun _ => rfl, fun _ => rfl⟩
    have identity : withTests id = id := by
      funext returned
      simp [withTests]
    have same := self.result_alike blind errors
    rw [identity] at same
    cases first : self.result req progress sandbox <;>
      cases second : self.result req progress sandbox' <;> rw [first, second] at same <;>
      exact same

end Disclosure

end Judge

/-! ### A program that fails -/

open Judge

/-- Two sandboxes whose commands all end the same way but print different things. -/
theorem sampleSandbox_alike [Host] {status : ExecStatus} (printed : status ≠ .ok)
    (stderr stderr' : String) : ∀ lang, sampleJudge.languages.get "python" = some lang →
      sampleJudge.SameBehaviour (SameOutcome .lines) (sampleSandbox status "" stderr)
        (sampleSandbox status "" stderr') lang (sampleRequest "python" "2\n") false := by
  intro lang found
  have known : sampleJudge.languages.get "python" = some python := by decide
  cases known.symm.trans found
  refine ⟨rfl, rfl, ?_, fun _ => ⟨?_, fun _ _ _ => trivial⟩⟩
  · intro step compiled
    cases compiled
  · exact .ok ⟨rfl, rfl, rfl, fun ok => absurd ok printed⟩

theorem output_disclosed_only_on_runtime_error_sample :
    letI := plainHost
    (sampleJudge.result (sampleRequest "python" "2\n") false
        (sampleSandbox (.signaled 11) "" "b")).map (withTests withoutStderr) =
      (sampleJudge.result (sampleRequest "python" "2\n") false
        (sampleSandbox (.signaled 11) "" "a")).map (withTests withoutStderr) :=
  letI := plainHost
  (output_disclosed_only_on_runtime_error sampleJudge rfl rfl
    (sampleSandbox_alike (by decide) "a" "b")).1

/-- A program that fails with an exit code after copying a hidden input to its stderr. -/
theorem stderr_discloses :
    letI := plainHost
    (∀ lang, sampleJudge.languages.get "python" = some lang →
      sampleJudge.SameBehaviour (SameOutcome .lines) (sampleSandbox (.nonZeroExit 1) "" "1\n")
        (sampleSandbox (.nonZeroExit 1) "" "") lang (sampleRequest "python" "2\n") false) ∧
      sampleJudge.result (sampleRequest "python" "2\n") false
          (sampleSandbox (.nonZeroExit 1) "" "") ≠
        sampleJudge.result (sampleRequest "python" "2\n") false
          (sampleSandbox (.nonZeroExit 1) "" "1\n") := by
  let _ := plainHost
  refine ⟨sampleSandbox_alike (by decide) "1\n" "", ?_⟩
  intro same
  have recorded := congrArg
    (fun answer => answer.toOption.map fun returned => returned.tests.map TestResult.stderr) same
  revert recorded
  decide

end Codexec
