/-
**Which test data a result discloses.**

A `Script` fixes what the sandbox answers, whatever it is given. Two requests that differ only in
the inputs and answers of their tests run side by side on it (`runLoop_script`): as long as the
outcomes compare alike the loop carries the same `failed_test`, and so the inputs and answers enter
the result for the first failure alone, as excerpts. `executedRun_getElem?` is that fact for one
run: test number `i` was recorded after the first failure among the `i` tests before it.
-/

import Codexec.Judge.Stopping

namespace Codexec

open Codexec.Library Program

/-! ### A fixed sequence of outcomes -/

def Call.isExec : Call → Bool
  | .exec _ _ => true
  | _ => false

/-- How many commands were executed so far. -/
def executedCommands (history : List Call) : Nat := history.countP Call.isExec

theorem executedCommands_exec (history : List Call) (spec : ExecSpec) (stdin : Bytes) :
    executedCommands (history ++ [.exec spec stdin]) = executedCommands history + 1 := by
  rw [executedCommands, List.countP_append]
  rfl

theorem executedCommands_told (history : List Call) (progress : Bool) (event : Progress) :
    executedCommands (history ++ toldCalls progress event) = executedCommands history := by
  rw [executedCommands, List.countP_append]
  cases progress <;> rfl

/-- What the calls of a run answer; the commands are numbered. -/
structure Script where
  acquire : Except SandboxError Unit
  writeFile : Except SandboxError Unit
  commands : Nat → Except SandboxError ExecOutcome
  release : Except SandboxError Unit

namespace Script

variable (script : Script)

/-- The sandbox that answers by the script. -/
def sandbox : Environment Call.Answer := fun history request =>
  match request with
  | .acquire => script.acquire
  | .writeFile _ _ => script.writeFile
  | .exec _ _ => script.commands (executedCommands history)
  | .release => script.release
  | .notify _ => ()

/-- The command that executes the first test. -/
def firstTest (lang : Language) : Nat := if lang.compile.isSome then 1 else 0

end Script

/-! ### Two tests with one outcome -/

/-- What the comparer says of an outcome; nothing without an expected answer. -/
def comparison [Host] (comparer : Comparer) (test : TestCase) (out : ExecOutcome) :
    Except String Unit :=
  match test.expected with
  | none => .ok ()
  | some expected => compare comparer expected out.stdout

/-- The comparer, if it is asked, says the same of an outcome for two tests. -/
def SameComparison [Host] (comparer : Comparer) (test test' : TestCase) (out : ExecOutcome) :
    Prop :=
  out.status = .ok → comparison comparer test' out = comparison comparer test out

/-- Data that agree in length and in their first bytes. -/
def SameExcerpt (bytes : Nat) (data data' : Bytes) : Prop :=
  data'.length = data.length ∧ data'.take bytes = data.take bytes

/-- The input and the expected answer of two tests agree in length and in their first bytes. -/
structure SameData (bytes : Nat) (test test' : TestCase) : Prop where
  input : SameExcerpt bytes test.input test'.input
  expected : Option.Rel (SameExcerpt bytes) test.expected test'.expected

theorem excerpt_same {bytes : Nat} {data data' : Bytes} (same : SameExcerpt bytes data data') :
    excerpt data' bytes = excerpt data bytes := by
  obtain ⟨lengths, first⟩ := same
  unfold excerpt
  rw [lengths, first]
  by_cases short : data.length ≤ bytes
  · have whole : data' = data := by
      rwa [List.take_of_length_le short, List.take_of_length_le (by omega)] at first
    rw [whole]
  · rw [if_neg short, if_neg short]

theorem map_excerpt_same {bytes : Nat} {expected expected' : Option Bytes}
    (same : Option.Rel (SameExcerpt bytes) expected expected') :
    expected'.map (excerpt · bytes) = expected.map (excerpt · bytes) := by
  cases same with
  | none => rfl
  | some same => rw [Option.map_some, Option.map_some, excerpt_same same]

/-- A request with other tests. -/
def JudgeRequest.withTests (req : JudgeRequest) (tests : List TestCase) : JudgeRequest :=
  { req with tests := tests }

namespace Judge

variable [Host] {self : Judge} {req : JudgeRequest} {lang : Language} {script : Script}

theorem classify_alike {comparer : Comparer} {test test' : TestCase} {out : ExecOutcome}
    (same : SameComparison comparer test test' out) :
    classify out test' comparer = classify out test comparer := by
  unfold classify
  cases status : out.status with
  | ok =>
    have compared := same status
    unfold comparison at compared
    cases given : test.expected with
    | none =>
      cases given' : test'.expected with
      | none => rfl
      | some expected' =>
        rw [given, given'] at compared
        simp only [compared]
    | some expected =>
      cases given' : test'.expected with
      | none =>
        rw [given, given'] at compared
        simp only [← compared]
      | some expected' =>
        rw [given, given'] at compared
        simp only [compared]
  | _ => rfl

section Test

variable {failedTest : Option String} {test test' : TestCase} {out : ExecOutcome}

theorem firstFailure_alike (same : SameComparison req.comparer test test' out) :
    firstFailure req failedTest test' out = firstFailure req failedTest test out := by
  rw [firstFailure, firstFailure, classify_alike same]

theorem nextFailed_alike (names : test'.name = test.name)
    (same : SameComparison req.comparer test test' out) :
    nextFailed req failedTest test' out = nextFailed req failedTest test out := by
  rw [nextFailed, nextFailed, firstFailure_alike same, names]

/-- **The data of a test are in its result only if it is the first failure**, and as excerpts. -/
theorem testResult_alike (captures : req.captureOutput = false) (names : test'.name = test.name)
    (same : SameComparison req.comparer test test' out)
    (shown : firstFailure req failedTest test out = true → req.showFailedInput = true →
      SameData self.cfg.excerptBytes test test') :
    self.testResult req failedTest test' out = self.testResult req failedTest test out := by
  unfold testResult
  simp only [captures, Bool.false_or, classify_alike same, firstFailure_alike same, names]
  by_cases shows : (firstFailure req failedTest test out && req.showFailedInput) = true
  · rw [Bool.and_eq_true] at shows
    obtain ⟨input, expected⟩ := shown shows.1 shows.2
    rw [excerpt_same input, map_excerpt_same expected]
  · rw [Bool.not_eq_true] at shows
    simp [shows]

end Test

/-! ### Two runs on one script -/

variable (self script req) in
/-- From command `n` on, as far as the run goes, the outcomes compare alike for two lists of tests,
and the first test that fails has the same data in both, if they are shown. -/
def AlikeTests : Nat → Option String → List TestCase → List TestCase → Prop
  | _, _, [], [] => True
  | n, failedTest, test :: rest, test' :: rest' =>
    test'.name = test.name ∧ ∀ out, script.commands n = .ok out →
      SameComparison req.comparer test test' out ∧
      (firstFailure req failedTest test out = true → req.showFailedInput = true →
        SameData self.cfg.excerptBytes test test') ∧
      ((firstFailure req failedTest test out && req.stopOnFirstFailure) = false →
        AlikeTests (n + 1) (nextFailed req failedTest test out) rest rest')
  | _, _, _, _ => False

/-- **On one script the loop returns the same for tests that look alike to it.** -/
theorem runLoop_script (captures : req.captureOutput = false) {progress : Bool} {spec : ExecSpec}
    {total i n : Nat} {results : List TestResult} {failedTest : Option String}
    {tests tests' : List TestCase} (all : List TestCase) {history history' : List Call}
    (count : executedCommands history = n) (count' : executedCommands history' = n)
    (alike : AlikeTests self req script n failedTest tests tests') :
    (run script.sandbox history' (self.runLoop (req.withTests all) progress spec total i results
        failedTest tests').run).1 =
      (run script.sandbox history (self.runLoop req progress spec total i results
        failedTest tests).run).1 := by
  induction tests generalizing tests' n i results failedTest history history' with
  | nil =>
    cases tests' with
    | nil => rfl
    | cons test' rest' => exact absurd alike id
  | cons test rest ih =>
    cases tests' with
    | nil => exact absurd alike id
    | cons test' rest' =>
      obtain ⟨names, later⟩ := alike
      rw [runLoop_cons, runLoop_cons]
      simp only [run]
      have answer : script.sandbox history (.exec spec test.input) = script.commands n :=
        congrArg script.commands count
      have answer' : script.sandbox history' (.exec spec test'.input) = script.commands n :=
        congrArg script.commands count'
      rw [answer, answer']
      cases given : script.commands n with
      | error e => rfl
      | ok out =>
        obtain ⟨same, shown, goesOn⟩ := later out given
        simp only [onAnswer]
        have first : firstFailure (req.withTests all) failedTest test' out =
            firstFailure req failedTest test out := firstFailure_alike same
        have next : nextFailed (req.withTests all) failedTest test' out =
            nextFailed req failedTest test out := nextFailed_alike names same
        have recorded : self.testResult (req.withTests all) failedTest test' out =
            self.testResult req failedTest test out := testResult_alike captures names same shown
        have stopping : (req.withTests all).stopOnFirstFailure = req.stopOnFirstFailure := rfl
        rw [run_told, run_told, first, next, recorded, stopping]
        by_cases stops : (firstFailure req failedTest test out && req.stopOnFirstFailure) = true
        · rw [if_pos stops, if_pos stops]
          rfl
        · rw [if_neg stops, if_neg stops]
          refine ih ?_ ?_ (goesOn (Bool.eq_false_iff.mpr stops))
          · rw [executedCommands_told, executedCommands_exec, count]
          · rw [executedCommands_told, executedCommands_exec, count']

theorem runTests_script (captures : req.captureOutput = false) {progress : Bool} {n : Nat}
    {compileOutput : Option String} {tests : List TestCase} {history history' : List Call}
    (count : executedCommands history = n) (count' : executedCommands history' = n)
    (lengths : tests.length = req.tests.length)
    (alike : AlikeTests self req script n none req.tests tests) :
    (run script.sandbox history' (self.runTests lang (req.withTests tests) progress
        compileOutput).run).1 =
      (run script.sandbox history (self.runTests lang req progress compileOutput).run).1 := by
  rw [runTests_run, runTests_run, run_told, run_told, run_bind, run_bind]
  simp only [run]
  have total : (req.withTests tests).tests.length = req.tests.length := lengths
  have spec : self.runSpec lang (req.withTests tests) = self.runSpec lang req := rfl
  rw [total, spec]
  congr 1
  refine runLoop_script captures tests ?_ ?_ alike
  · rw [executedCommands_told, count]
  · rw [executedCommands_told, count']

theorem afterWrite_script (captures : req.captureOutput = false) {progress : Bool}
    {tests : List TestCase} (lengths : tests.length = req.tests.length)
    (alike : AlikeTests self req script (Script.firstTest lang) none req.tests tests) :
    (run script.sandbox [.acquire, .writeFile lang.sourceFile (utf8 req.source)]
        (self.afterWrite lang (req.withTests tests) progress)).1 =
      (run script.sandbox [.acquire, .writeFile lang.sourceFile (utf8 req.source)]
        (self.afterWrite lang req progress)).1 := by
  unfold afterWrite
  cases found : lang.compile with
  | none =>
    refine runTests_script captures ?_ ?_ lengths alike
    · simp [Script.firstTest, found, executedCommands, Call.isExec]
    · simp [Script.firstTest, found, executedCommands, Call.isExec]
  | some step =>
    simp only []
    rw [run_told, run_told, run, run]
    cases script.sandbox _ (.exec (self.compileSpec lang step) []) with
    | error e => rfl
    | ok out =>
      simp only [onAnswer]
      unfold afterCompile
      simp only []
      have commands (progress : Bool) : executedCommands ([.acquire, .writeFile lang.sourceFile
          (utf8 req.source)] ++ toldCalls progress .compiling ++
            [.exec (self.compileSpec lang step) []]) = Script.firstTest lang := by
        rw [executedCommands_exec, executedCommands_told, Script.firstTest, found]
        rfl
      by_cases ok : out.status = .ok
      · rw [if_pos ok, if_pos ok]
        exact runTests_script captures (commands progress) (commands progress) lengths alike
      · rw [if_neg ok, if_neg ok]
        have total : (req.withTests tests).tests.length = req.tests.length := lengths
        rw [total]

/-- **On one script two requests with tests that look alike to it get the same result.** -/
theorem result_script (captures : req.captureOutput = false) {progress : Bool}
    {tests : List TestCase} (lengths : tests.length = req.tests.length)
    (alike : ∀ lang, self.languages.get req.language = some lang →
      AlikeTests self req script (Script.firstTest lang) none req.tests tests) :
    self.result (req.withTests tests) progress script.sandbox =
      self.result req progress script.sandbox := by
  unfold result
  cases known : self.languages.get req.language with
  | none =>
    rw [judge_of_unknown self req progress known,
      judge_of_unknown self (req.withTests tests) progress known]
    rfl
  | some lang =>
    cases acquired : script.sandbox [] .acquire with
    | error e =>
      rw [self.run_judge_of_refused req progress script.sandbox known acquired,
        self.run_judge_of_refused (req.withTests tests) progress script.sandbox known acquired]
    | ok done =>
      rw [self.run_judge_of_acquired req progress script.sandbox known acquired,
        self.run_judge_of_acquired (req.withTests tests) progress script.sandbox known acquired]
      simp only []
      congr 1
      rw [run_judgeInBox, run_judgeInBox]
      have written : script.sandbox [.acquire] (.writeFile lang.sourceFile
          (utf8 (req.withTests tests).source)) =
          script.sandbox [.acquire] (.writeFile lang.sourceFile (utf8 req.source)) := rfl
      rw [written]
      cases script.sandbox [.acquire] (.writeFile lang.sourceFile (utf8 req.source)) with
      | error e => rfl
      | ok done => exact afterWrite_script captures lengths (alike lang known)

/-! ### Test by test -/

variable (script req) in
/-- Test number `i` is accepted, if it has an outcome; the tests begin with command `n`. -/
def AcceptedAt (n : Nat) (tests : List TestCase) (i : Nat) : Prop :=
  ∀ test out, tests[i]? = some test → script.commands (n + i) = .ok out → Accepted req (test, out)

variable (script req) in
/-- The run gets to test number `i`. -/
def Reaches (n : Nat) (tests : List TestCase) (i : Nat) : Prop :=
  req.stopOnFirstFailure = true → ∀ j < i, AcceptedAt req script n tests j

theorem AcceptedAt.succ {n i : Nat} {test : TestCase} {rest : List TestCase}
    (accepted : AcceptedAt req script (n + 1) rest i) :
    AcceptedAt req script n (test :: rest) (i + 1) := by
  intro test' out here given
  refine accepted test' out here ?_
  rwa [Nat.add_assoc, Nat.add_comm 1 i]

theorem acceptedAt_head {n : Nat} {test : TestCase} {rest : List TestCase} {out : ExecOutcome}
    (given : script.commands n = .ok out) (accepted : Accepted req (test, out)) :
    AcceptedAt req script n (test :: rest) 0 := by
  intro test' out' here given'
  cases here
  cases given.symm.trans given'
  exact accepted

/-- Nothing has failed after a test if nothing had failed before it and it was accepted. -/
theorem nextFailed_eq_none {failedTest : Option String} {test : TestCase} {out : ExecOutcome}
    (unfailed : nextFailed req failedTest test out = none) :
    failedTest = none ∧ Accepted req (test, out) := by
  unfold nextFailed at unfailed
  split at unfailed
  · cases unfailed
  · rename_i first
    subst unfailed
    refine ⟨rfl, ?_⟩
    simpa [firstFailure, Accepted] using first

/-- The tests before a later one are the first test and the tests before that one. -/
theorem acceptedAt_below {n i : Nat} {test : TestCase} {rest : List TestCase}
    (here : AcceptedAt req script n (test :: rest) 0)
    (later : ∀ j < i, AcceptedAt req script (n + 1) rest j) :
    ∀ j < i + 1, AcceptedAt req script n (test :: rest) j := by
  intro j below
  cases j with
  | zero => exact here
  | succ j => exact (later j (Nat.lt_of_succ_lt_succ below)).succ

/-- **Tests look alike to the run** if the outcomes compare alike and the first test that is not
accepted has the same data. -/
theorem alikeTests_of {n : Nat} {failedTest : Option String} {tests tests' : List TestCase}
    (names : List.Forall₂ (fun test test' : TestCase => test'.name = test.name) tests tests')
    (unfailed : Unfailed req failedTest)
    (compared : ∀ i test test' out, Reaches req script n tests i → tests[i]? = some test →
      tests'[i]? = some test' → script.commands (n + i) = .ok out →
        SameComparison req.comparer test test' out)
    (shown : req.showFailedInput = true → failedTest = none → ∀ i test test' out,
      (∀ j < i, AcceptedAt req script n tests j) → tests[i]? = some test →
      tests'[i]? = some test' → script.commands (n + i) = .ok out → ¬ Accepted req (test, out) →
        SameData self.cfg.excerptBytes test test') :
    AlikeTests self req script n failedTest tests tests' := by
  induction names generalizing n failedTest with
  | nil => trivial
  | @cons test test' rest rest' name names ih =>
    refine ⟨name, fun out given => ⟨?_, ?_, fun goesOn => ?_⟩⟩
    · exact compared 0 test test' out (fun _ j below => absurd below (Nat.not_lt_zero j)) rfl rfl
        given
    · intro first shows
      unfold firstFailure at first
      rw [Bool.and_eq_true, bne_iff_ne, Option.isNone_iff_eq_none] at first
      exact shown shows first.2 0 test test' out (fun j below => absurd below (Nat.not_lt_zero j))
        rfl rfl given first.1
    · rw [← Bool.not_eq_true, stops_iff unfailed, not_and_or, not_not, Bool.not_eq_true] at goesOn
      refine ih (unfailed.next goesOn) ?_ ?_
      · intro i one two out' reaches here there given'
        refine compared (i + 1) one two out' (fun stops => ?_) here there ?_
        · refine acceptedAt_below (acceptedAt_head given ?_) (reaches stops)
          exact goesOn.resolve_right fun never => by cases stops.symm.trans never
        · rwa [Nat.add_comm i 1, ← Nat.add_assoc]
      · intro shows none i one two out' earlier here there given'
        obtain ⟨unfailed, accepted⟩ := nextFailed_eq_none none
        refine shown shows unfailed (i + 1) one two out' ?_ here there ?_
        · exact acceptedAt_below (acceptedAt_head given accepted) earlier
        · rwa [Nat.add_comm i 1, ← Nat.add_assoc]

/-! ### One run -/

/-- Data of the test are in its result. -/
def Carries (recorded : TestResult) : Prop :=
  recorded.input ≠ none ∨ recorded.expected ≠ none ∨ recorded.stdout ≠ none

/-- **What the loop recorded for a test depends on the earlier tests by their first failure.** -/
theorem executedRun_getElem? (pairs : List (TestCase × ExecOutcome)) (i : Nat) :
    (self.executedRun req [] none pairs).1[i]? = pairs[i]?.map fun pair =>
      self.testResult req ((firstFailed req (pairs.take i)).map fun pair => pair.1.name)
        pair.1 pair.2 := by
  induction pairs using List.reverseRecOn generalizing i with
  | nil => rfl
  | append_singleton pairs pair ih =>
    have lengths : (self.executedRun req [] none pairs).1.length = pairs.length := by
      have verdicts := congrArg List.length (self.executedRun_verdicts req [] none pairs)
      simpa using verdicts
    rw [executedRun_append, executedRun_failed, Option.none_or]
    show ((self.executedRun req [] none pairs).1 ++ [_])[i]? = _
    rcases Nat.lt_or_ge i pairs.length with below | above
    · rw [List.getElem?_append_left (by rwa [lengths]), List.getElem?_append_left below, ih,
        List.take_append_of_le_length (Nat.le_of_lt below)]
    · rw [List.getElem?_append_right (by rwa [lengths]), List.getElem?_append_right above, lengths]
      cases left : i - pairs.length with
      | zero =>
        have last : i = pairs.length := Nat.le_antisymm (Nat.le_of_sub_eq_zero left) above
        rw [last, List.take_left]
        rfl
      | succ more => rfl

/-- The tests before test number `i` are accepted. -/
def EarlierAccepted (results : List TestResult) (i : Nat) : Prop :=
  ∀ (j : Nat) (earlier : TestResult), j < i → results[j]? = some earlier →
    earlier.verdict = .accepted

/-- **Data of a test are in its result only if it is the first failure.** -/
structure DisclosesFirst (results : List TestResult) : Prop where
  /-- A result with data is not accepted, and all before it are. -/
  first : ∀ (i : Nat) (recorded : TestResult), results[i]? = some recorded → Carries recorded →
    recorded.verdict ≠ .accepted ∧ EarlierAccepted results i
  /-- There is at most one. -/
  single : ∀ (i j : Nat) (one two : TestResult), results[i]? = some one → results[j]? = some two →
    Carries one → Carries two → i = j

omit [Host] in
theorem DisclosesFirst.of_first {results : List TestResult}
    (first : ∀ (i : Nat) (recorded : TestResult), results[i]? = some recorded → Carries recorded →
      recorded.verdict ≠ .accepted ∧ EarlierAccepted results i) :
    DisclosesFirst results := by
  refine ⟨first, fun i j one two here there shown shown' => ?_⟩
  rcases Nat.lt_trichotomy i j with before | same | after
  · exact absurd ((first j two there shown').2 i one before here) (first i one here shown).1
  · exact same
  · exact absurd ((first i one here shown).2 j two after there) (first j two there shown').1

/-- A result with data is of the first failure, if output is not captured. -/
theorem firstFailure_of_carries {req : JudgeRequest} (captures : req.captureOutput = false)
    {failedTest : Option String} {test : TestCase} {out : ExecOutcome}
    (carries : Carries (self.testResult req failedTest test out)) :
    firstFailure req failedTest test out = true := by
  by_contra other
  rw [Bool.not_eq_true] at other
  unfold Carries testResult at carries
  simp [captures, other] at carries

theorem executedRun_discloses (captures : req.captureOutput = false)
    (pairs : List (TestCase × ExecOutcome)) :
    DisclosesFirst (self.executedRun req [] none pairs).1 := by
  refine .of_first fun i recorded here carries => ?_
  rw [executedRun_getElem?, Option.map_eq_some_iff] at here
  obtain ⟨pair, inside, rfl⟩ := here
  have shown := firstFailure_of_carries captures carries
  unfold firstFailure at shown
  rw [Bool.and_eq_true, bne_iff_ne, Option.isNone_map, Option.isNone_iff_eq_none] at shown
  obtain ⟨fails, none⟩ := shown
  refine ⟨fails, fun j earlier before there => ?_⟩
  rw [executedRun_getElem?, Option.map_eq_some_iff] at there
  obtain ⟨other, inside', rfl⟩ := there
  have early : other ∈ pairs.take i :=
    List.mem_iff_getElem?.mpr ⟨j, by rw [List.getElem?_take_of_lt before, inside']⟩
  exact firstFailed_eq_none.mp none other early

/-- The data of the tests are disclosed by the result of a run in this way. -/
theorem Executed.discloses (captures : req.captureOutput = false) {ran : List Execution}
    {result : JudgeResult} (executed : Executed self req lang ran result) :
    DisclosesFirst result.tests := by
  cases executed with
  | compileFailed found compile failed => exact .of_first fun i recorded here => by cases here
  | tested compiled extent tests => exact executedRun_discloses captures _

/-! ### Two requests -/

variable (self req script) in
/-- The comparer says the same for two lists of tests, as far as the run goes. -/
def SameComparisons (tests : List TestCase) : Prop :=
  ∀ lang, self.languages.get req.language = some lang → ∀ i test test' out,
    Reaches req script (Script.firstTest lang) req.tests i → req.tests[i]? = some test →
    tests[i]? = some test' → script.commands (Script.firstTest lang + i) = .ok out →
      SameComparison req.comparer test test' out

variable (self req script) in
/-- The first test that is not accepted has data of the same lengths and excerpts in both lists. -/
def SameFirstFailure (tests : List TestCase) : Prop :=
  ∀ lang, self.languages.get req.language = some lang → ∀ i test test' out,
    (∀ j < i, AcceptedAt req script (Script.firstTest lang) req.tests j) →
    req.tests[i]? = some test → tests[i]? = some test' →
    script.commands (Script.firstTest lang + i) = .ok out → ¬ Accepted req (test, out) →
      SameData self.cfg.excerptBytes test test'

theorem result_of_alike (captures : req.captureOutput = false) {progress : Bool}
    {tests : List TestCase}
    (names : List.Forall₂ (fun test test' : TestCase => test'.name = test.name) req.tests tests)
    (compared : SameComparisons self req script tests)
    (shown : req.showFailedInput = true → SameFirstFailure self req script tests) :
    self.result (req.withTests tests) progress script.sandbox =
      self.result req progress script.sandbox := by
  refine result_script captures names.length_eq.symm fun lang known => ?_
  exact alikeTests_of names (.inl rfl) (compared lang known)
    fun shows _ => shown shows lang known

/-- **Test data are disclosed through the first failure, as excerpts.** Without capture, on fixed
outcomes and comparisons, two requests that differ only in the data of their tests get one result:
always if failed inputs are not shown, and otherwise if the first tests that are not accepted agree
in the lengths and excerpts of their data. In the result of any run at most the first test that is
not accepted carries data. -/
theorem disclosed_by_first_failure (captures : req.captureOutput = false) :
    (∀ (script : Script) (progress : Bool) (tests : List TestCase),
      List.Forall₂ (fun test test' : TestCase => test'.name = test.name) req.tests tests →
      SameComparisons self req script tests →
      (req.showFailedInput = false ∨ SameFirstFailure self req script tests) →
        self.result (req.withTests tests) progress script.sandbox =
          self.result req progress script.sandbox) ∧
    ∀ (progress : Bool) (transcript : List (Exchange Call.Answer)) (result : JudgeResult),
      Follows (self.judge req progress) transcript (.pure (.ok result)) →
        DisclosesFirst result.tests := by
  constructor
  · intro script progress tests names compared either
    refine result_of_alike captures names compared fun shows => ?_
    exact either.resolve_left fun never => by cases shows.symm.trans never
  · intro progress transcript result follows
    obtain ⟨lang, known, executed⟩ := judge_executes follows
    exact executed.discloses captures

end Judge

open Judge

/-- Every command prints `2`. -/
def printingScript : Script where
  acquire := .ok ()
  writeFile := .ok ()
  commands _ := .ok ⟨.ok, utf8 "2\n", [], 10, 20, 3000⟩
  release := .ok ()

/-- Other inputs of the first and the last test. -/
def otherTests : List TestCase :=
  [⟨"01", utf8 "8\n", some (utf8 "2\n")⟩, ⟨"02", utf8 "5\n", some (utf8 "3\n")⟩,
    ⟨"03", utf8 "a much longer input\n", some (utf8 "2\n")⟩]

def shownRequest : JudgeRequest :=
  { mixedRequest "python" with stopOnFirstFailure := false, showFailedInput := true }

/-- The second test is the first failure. Nothing tells the others apart. -/
theorem disclosed_by_first_failure_sample :
    letI := plainHost
    sampleJudge.result (shownRequest.withTests otherTests) true printingScript.sandbox =
      sampleJudge.result shownRequest true printingScript.sandbox := by
  let host := plainHost
  have passes (test : TestCase) (answer : test.expected = some (utf8 "2\n")) :
      Accepted shownRequest (test, ⟨.ok, utf8 "2\n", [], 10, 20, 3000⟩) := by
    obtain ⟨name, input, expected⟩ := test
    cases answer
    rfl
  refine (@disclosed_by_first_failure _ sampleJudge _ rfl).1 printingScript true _
    (.cons rfl (.cons rfl (.cons rfl .nil))) ?_ (.inr ?_)
  · rintro lang known (_ | _ | _ | i) test test' out reaches here there given ok
    · cases here
      cases there
      rfl
    · cases here
      cases there
      rfl
    · cases here
      cases there
      rfl
    · cases here
  · rintro lang known (_ | _ | _ | i) test test' out early here there given fails
    · cases here
      cases given
      exact absurd (passes _ rfl) fails
    · cases here
      cases there
      exact ⟨⟨rfl, rfl⟩, .some ⟨rfl, rfl⟩⟩
    · have wrong := early 1 (by decide) _ _ rfl rfl
      cases wrong
    · cases here

end Codexec
