/-
**Stopping early against running all the tests.**

Two runs of one request whose commands have the same outcomes as far as both go, one that stops at
the first failure and one that does not. The executed tests of the first are a prefix of those of
the second (`zip_isPrefix`), the loop records the same results for them (`executedRun_append`, where
the carried `failed_test` is the invariant), and what is left out has no first failure in it.
-/

import Codexec.Judge.Specification

namespace Codexec

open Codexec.Library Program

/-- The outcomes of two runs agree as far as both went. -/
def Agree (first second : List Execution) : Prop :=
  ∀ (i : Nat) (one two : Execution), first[i]? = some one → second[i]? = some two →
    one.2.2 = two.2.2

theorem Agree.tail {first second : List Execution} {one two : Execution}
    (agree : Agree (one :: first) (two :: second)) : Agree first second :=
  fun i => agree (i + 1)

theorem Agree.symm {first second : List Execution} (agree : Agree first second) :
    Agree second first :=
  fun i one two here there => (agree i two one there here).symm

theorem Agree.head {first second : List Execution} {one two : Execution}
    (agree : Agree (one :: first) (two :: second)) : one.2.2 = two.2.2 :=
  agree 0 one two rfl rfl

/-- A request that stops at the first failure, or does not. -/
def JudgeRequest.stopping (req : JudgeRequest) (stops : Bool) : JudgeRequest :=
  { req with stopOnFirstFailure := stops }

namespace Judge

/-! ### What was executed -/

/-- The fewer outcomes of tests are the first of the more. -/
theorem outs_isPrefix {spec spec' : ExecSpec} {tests : List TestCase}
    {outs outs' : List ExecOutcome}
    (agree : Agree ((tests.zip outs).map (testExecution spec))
      ((tests.zip outs').map (testExecution spec')))
    (within : outs'.length ≤ tests.length) (fewer : outs.length ≤ outs'.length) :
    outs <+: outs' := by
  induction tests generalizing outs outs' with
  | nil =>
    rw [List.length_nil, Nat.le_zero] at within
    rw [within, Nat.le_zero, List.length_eq_zero_iff] at fewer
    rw [fewer]
    exact List.nil_prefix
  | cons test rest ih =>
    cases outs with
    | nil => exact List.nil_prefix
    | cons out outs =>
      cases outs' with
      | nil => exact absurd fewer (Nat.not_succ_le_zero _)
      | cons out' outs' =>
        have same : Except.ok out = Except.ok out' := agree.head
        cases same
        exact List.cons_prefix_cons.mpr
          ⟨rfl, ih agree.tail (Nat.le_of_succ_le_succ within) (Nat.le_of_succ_le_succ fewer)⟩

theorem zip_isPrefix {outs outs' : List ExecOutcome} (part : outs <+: outs')
    (tests : List TestCase) : tests.zip outs <+: tests.zip outs' := by
  obtain ⟨more, rfl⟩ := part
  induction tests generalizing outs with
  | nil => exact List.nil_prefix
  | cons test rest ih =>
    cases outs with
    | nil => exact List.nil_prefix
    | cons out outs => exact List.cons_prefix_cons.mpr ⟨rfl, ih⟩

/-- The same compile outcome keeps the same output. -/
theorem Compiled.agree {self : Judge} {lang : Language}
    {compile compile' rest rest' : List Execution}
    {compileOutput compileOutput' : Option String}
    (compiled : Compiled self lang compile compileOutput)
    (compiled' : Compiled self lang compile' compileOutput')
    (agree : Agree (compile ++ rest) (compile' ++ rest')) :
    compileOutput = compileOutput' ∧ Agree rest rest' := by
  cases compiled with
  | interpreted without =>
    cases compiled' with
    | interpreted => exact ⟨rfl, agree⟩
    | compiled found => cases without.symm.trans found
  | @compiled step out found ok =>
    cases compiled' with
    | interpreted without => cases without.symm.trans found
    | @compiled step' out' =>
      have same : Except.ok out = Except.ok out' := agree.head
      cases same
      exact ⟨rfl, agree.tail⟩

/-- A compile step that failed did not succeed. -/
theorem Compiled.disagree {self : Judge} {lang : Language} {compile rest rest' : List Execution}
    {compileOutput : Option String} {step : Step} {out : ExecOutcome}
    (compiled : Compiled self lang compile compileOutput) (found : lang.compile = some step)
    (failed : out.status ≠ .ok) :
    ¬ Agree ((self.compileSpec lang step, [], .ok out) :: rest') (compile ++ rest) := by
  intro agree
  cases compiled with
  | interpreted without => cases without.symm.trans found
  | @compiled step' out' found' ok =>
    have same : Except.ok out = Except.ok out' := agree.head
    cases same
    exact failed ok

variable [Host] {self : Judge} {req : JudgeRequest} {lang : Language}

/-- The loop only adds results. -/
theorem executedRun_isPrefix (results : List TestResult) (failedTest : Option String)
    (pairs : List (TestCase × ExecOutcome)) :
    results <+: (self.executedRun req results failedTest pairs).1 := by
  induction pairs generalizing results failedTest with
  | nil => exact List.prefix_rfl
  | cons pair rest ih => exact (List.prefix_append _ _).trans (ih _ _)

/-- **The results of the first executed tests are the first results.** -/
theorem executedRun_append (results : List TestResult) (failedTest : Option String)
    (before after : List (TestCase × ExecOutcome)) :
    self.executedRun req results failedTest (before ++ after) =
      self.executedRun req (self.executedRun req results failedTest before).1
        (self.executedRun req results failedTest before).2 after := by
  induction before generalizing results failedTest with
  | nil => rfl
  | cons pair rest ih => exact ih _ _

/-- Whether a run stops is nothing its results tell. -/
theorem executedRun_stopping (stops : Bool) (results : List TestResult)
    (failedTest : Option String) (pairs : List (TestCase × ExecOutcome)) :
    self.executedRun (req.stopping stops) results failedTest pairs =
      self.executedRun req results failedTest pairs := by
  induction pairs generalizing results failedTest with
  | nil => rfl
  | cons pair rest ih => exact ih _ _

/-- A first failure among the first executed tests is the first failure. -/
theorem firstFailed_append {before after : List (TestCase × ExecOutcome)}
    {pair : TestCase × ExecOutcome} (found : firstFailed req before = some pair) :
    firstFailed req (before ++ after) = some pair := by
  rw [firstFailed, List.find?_append]
  show (firstFailed req before).or _ = some pair
  rw [found, Option.some_or]

/-- The executed tests of a run that stops, against those of one that does not. -/
structure Stopped (req : JudgeRequest) (pairs pairs' : List (TestCase × ExecOutcome)) : Prop where
  part : pairs <+: pairs'
  first : firstFailed req pairs' = firstFailed req pairs
  ends : (pairs = pairs' ∧ ∀ pair ∈ pairs, Accepted req pair) ∨
    ∃ before last, pairs = before ++ [last] ∧ (∀ pair ∈ before, Accepted req pair) ∧
      ¬ Accepted req last

/-- A run that does not stop executes every test. -/
theorem Extent.all {tests : List TestCase} {outs : List ExecOutcome}
    (extent : Extent (req.stopping false) tests outs) : outs.length = tests.length := by
  rcases extent.exact with ⟨all, -⟩ | ⟨-, stops, -⟩
  · exact all
  · cases stops

/-- **What the run that does not stop executes more is after the first failure.** -/
theorem stopped_of_extents {outs outs' : List ExecOutcome}
    (extent : Extent (req.stopping true) req.tests outs)
    (extent' : Extent (req.stopping false) req.tests outs') (part : outs <+: outs') :
    Stopped req (req.tests.zip outs) (req.tests.zip outs') := by
  have pairs := zip_isPrefix part req.tests
  rcases extent.exact with ⟨whole, accepted⟩ | ⟨-, -, before, last, split, accepted, fails⟩
  · obtain rfl := part.eq_of_length (whole.trans extent'.all.symm)
    exact ⟨pairs, rfl, .inl ⟨rfl, accepted rfl⟩⟩
  · refine ⟨pairs, ?_, .inr ⟨before, last, split, accepted, fails⟩⟩
    cases found : firstFailed req (req.tests.zip outs) with
    | none =>
      exact absurd (firstFailed_eq_none.mp found last (by simp [split])) fails
    | some pair =>
      obtain ⟨more, same⟩ := pairs
      rw [← same]
      exact firstFailed_append found

/-! ### The two results -/

/-- The result of a run that stops at the first failure, against that of one that does not. -/
structure StoppedEarly (result result' : JudgeResult) : Prop where
  verdict : result.verdict = result'.verdict
  failedTest : result.failedTest = result'.failedTest
  compileOutput : result.compileOutput = result'.compileOutput
  testsTotal : result.testsTotal = result'.testsTotal
  tests : result.tests <+: result'.tests
  /-- The tests end at the first that is not accepted. -/
  ends : (result.tests = result'.tests ∧ ∀ recorded ∈ result.tests, recorded.verdict = .accepted) ∨
    ∃ before last, result.tests = before ++ [last] ∧
      (∀ recorded ∈ before, recorded.verdict = .accepted) ∧ last.verdict ≠ .accepted
  timeMs : result.timeMs ≤ result'.timeMs
  memoryKb : result.memoryKb ≤ result'.memoryKb

/-- The verdicts that are recorded, as far as a test was accepted. -/
theorem accepted_of_verdicts {results : List TestResult} {pairs : List (TestCase × ExecOutcome)}
    (verdicts : results.map TestResult.verdict =
      pairs.map fun pair => (classify pair.2 pair.1 req.comparer).1)
    (accepted : ∀ pair ∈ pairs, Accepted req pair) :
    ∀ recorded ∈ results, recorded.verdict = .accepted := by
  intro recorded inside
  have verdict : recorded.verdict ∈ results.map TestResult.verdict := List.mem_map_of_mem inside
  rw [verdicts] at verdict
  obtain ⟨pair, inside, same⟩ := List.mem_map.mp verdict
  rw [← same]
  exact accepted pair inside

/-- **The results of a run that stops end where it stops.** -/
theorem Stopped.ends_results {results : List TestResult}
    {before : List (TestCase × ExecOutcome)} {last : TestCase × ExecOutcome}
    (verdicts : results.map TestResult.verdict =
      (before ++ [last]).map fun pair => (classify pair.2 pair.1 req.comparer).1)
    (accepted : ∀ pair ∈ before, Accepted req pair) (fails : ¬ Accepted req last) :
    ∃ first final, results = first ++ [final] ∧
      (∀ recorded ∈ first, recorded.verdict = .accepted) ∧ final.verdict ≠ .accepted := by
  rw [List.map_append, List.map_singleton] at verdicts
  obtain ⟨first, rest, rfl, early, late⟩ := List.map_eq_append_iff.mp verdicts
  obtain ⟨final, rfl, verdict⟩ := List.map_eq_singleton_iff.mp late
  refine ⟨first, final, rfl, accepted_of_verdicts early accepted, ?_⟩
  rw [verdict]
  exact fails

theorem Stopped.result {pairs pairs' : List (TestCase × ExecOutcome)}
    (stopped : Stopped req pairs pairs') (total : Nat) (compileOutput : Option String) :
    StoppedEarly (finalResult total compileOutput (self.executedRun req [] none pairs))
      (finalResult total compileOutput (self.executedRun req [] none pairs')) := by
  have one := summarises self req total compileOutput pairs
  have two := summarises self req total compileOutput pairs'
  have verdicts := self.executedRun_verdicts req [] none pairs
  rw [List.map_nil, List.nil_append] at verdicts
  refine ⟨?_, ?_, rfl, rfl, ?_, ?_, ?_, ?_⟩
  · rw [one.verdict, two.verdict, stopped.first]
  · rw [one.failedTest, two.failedTest, stopped.first]
  · obtain ⟨more, same⟩ := stopped.part
    show (self.executedRun req [] none pairs).1 <+: (self.executedRun req [] none pairs').1
    rw [← same, executedRun_append]
    exact executedRun_isPrefix _ _ _
  · rcases stopped.ends with ⟨rfl, accepted⟩ | ⟨before, last, rfl, accepted, fails⟩
    · exact .inl ⟨rfl, accepted_of_verdicts verdicts accepted⟩
    · exact .inr (Stopped.ends_results verdicts accepted fails)
  · exact one.timeMs.mono (stopped.part.map _) two.timeMs
  · exact one.memoryKb.mono (stopped.part.map _) two.memoryKb

/-- The results of two such runs. -/
theorem Executed.stopped {ran ran' : List Execution} {result result' : JudgeResult}
    (executed : Executed self (req.stopping true) lang ran result)
    (executed' : Executed self (req.stopping false) lang ran' result') (agree : Agree ran ran') :
    StoppedEarly result result' := by
  cases executed with
  | @compileFailed step out found compile failed =>
    cases executed' with
    | @compileFailed step' out' found' compile' failed' =>
      subst compile compile'
      cases found.symm.trans found'
      have same : Except.ok out = Except.ok out' := agree.head
      cases same
      exact ⟨rfl, rfl, rfl, rfl, List.prefix_rfl, .inl ⟨rfl, by simp [compileFailure]⟩,
        UInt64.le_refl _, UInt64.le_refl _⟩
    | tested compiled extent tests =>
      subst compile tests
      exact absurd agree (compiled.disagree found failed)
  | @tested compile compileOutput outs compiled extent tests =>
    cases executed' with
    | compileFailed found' compile' failed' =>
      subst tests compile'
      exact absurd agree.symm (compiled.disagree found' failed')
    | @tested compile' compileOutput' outs' compiled' extent' tests' =>
      subst tests tests'
      obtain ⟨rfl, agree⟩ := compiled.agree compiled' agree
      have fewer : outs.length ≤ outs'.length :=
        Nat.le_trans extent.fits (Nat.le_of_eq extent'.all.symm)
      have part := outs_isPrefix agree extent'.fits fewer
      rw [executedRun_stopping, executedRun_stopping]
      exact (stopped_of_extents extent extent' part).result _ _

/-- **Stopping early does not change the verdict.** Two runs of a request whose commands have the
same outcomes as far as both go, without infrastructure errors: the one that stops at the first
failure returns what the other one does, with the tests up to that failure. -/
theorem stopping_keeps_verdict {progress progress' : Bool}
    {transcript transcript' : List (Exchange Call.Answer)}
    {value value' : Except JudgeError JudgeResult}
    (follows : Follows (self.judge (req.stopping true) progress) transcript (.pure value))
    (follows' : Follows (self.judge (req.stopping false) progress') transcript' (.pure value'))
    (answered : ∀ exchange ∈ transcript, ¬ Failed exchange)
    (answered' : ∀ exchange ∈ transcript', ¬ Failed exchange)
    (agree : Agree (executions transcript) (executions transcript')) :
    (self.languages.get req.language = none ∧
        value = .error (.unknownLanguage req.language) ∧ value' = value) ∨
      ∃ result result', value = .ok result ∧ value' = .ok result' ∧
        StoppedEarly result result' := by
  cases known : self.languages.get req.language with
  | none =>
    rw [judge_of_unknown self (req.stopping true) progress known] at follows
    rw [judge_of_unknown self (req.stopping false) progress' known] at follows'
    cases follows.of_pure.2
    cases follows'.of_pure.2
    exact .inl ⟨rfl, rfl, rfl⟩
  | some lang =>
    have found (stops : Bool) : self.languages.get (req.stopping stops).language = some lang :=
      known
    obtain ⟨result, rfl⟩ := returns_of_answered (found true) follows answered
    obtain ⟨result', rfl⟩ := returns_of_answered (found false) follows' answered'
    obtain ⟨one, here, executed⟩ := judge_executes follows
    obtain ⟨two, there, executed'⟩ := judge_executes follows'
    cases (found true).symm.trans here
    cases (found false).symm.trans there
    exact .inr ⟨result, result', rfl, rfl, executed.stopped executed' agree⟩

end Judge

open Judge

/-- The commands of two runs on one of the sample sandboxes have the same outcomes. -/
theorem sampleSandbox_agree {α : Type} (status : ExecStatus) (stdout stderr : String)
    (program program' : JudgeM α) :
    Agree (executions (Program.transcript (sampleSandbox status stdout stderr) [] program))
      (executions (Program.transcript (sampleSandbox status stdout stderr) [] program')) := by
  have answers (program : JudgeM α) (execution : Execution) (inside : execution ∈
      executions (Program.transcript (sampleSandbox status stdout stderr) [] program)) :
      execution.2.2 = .ok ⟨status, utf8 stdout, utf8 stderr, 10, 20, 3000⟩ := by
    obtain ⟨history, same⟩ := mem_transcript (mem_executions.mp inside)
    exact eq_of_heq (Sigma.mk.inj same).2
  intro i one two here there
  rw [answers program one (List.mem_of_getElem? here),
    answers program' two (List.mem_of_getElem? there)]

/-- The second of three tests fails: one run executes two of them, the other one all. -/
theorem stopping_keeps_verdict_sample :
    letI := plainHost
    ∃ result result', sampleJudge.result ((mixedRequest "python").stopping true) true
        (sampleSandbox .ok "2\n" "") = .ok result ∧
      sampleJudge.result ((mixedRequest "python").stopping false) false
        (sampleSandbox .ok "2\n" "") = .ok result' ∧ StoppedEarly result result' ∧
      result.tests.length = 2 ∧ result'.tests.length = 3 := by
  let host := plainHost
  have follows (stops progress : Bool) := follows_transcript (sampleSandbox .ok "2\n" "") []
    (sampleJudge.judge ((mixedRequest "python").stopping stops) progress)
  obtain ⟨unknown, -⟩ | ⟨result, result', here, there, early⟩ :=
    stopping_keeps_verdict (follows true true) (follows false false)
      (sampleSandbox_answered _ _ _ _) (sampleSandbox_answered _ _ _ _)
      (sampleSandbox_agree _ _ _ _ _)
  · cases unknown
  · cases here
    cases there
    exact ⟨_, _, rfl, rfl, early, rfl, rfl⟩

end Codexec
