/-
**The functional specification of judging.**

A run without an infrastructure error returns a result, and the result is what the outcomes of its
commands say (`Specified`): a compile error if the compile step failed, and otherwise a summary of
the tests that were executed. Which ones these are depends on the outcomes alone (`ExactExtent`).
The loop keeps the first failure in `failed_test` and looks for it once more in the results; both
are the first executed test that was not accepted (`firstFailed`).
-/

import Codexec.Judge.Execution
import Codexec.Judge.Lifecycle

namespace Codexec

open Codexec.Library Program

/-- The greatest of some numbers, or zero if there are none. -/
structure Maximum (numbers : List UInt64) (most : UInt64) : Prop where
  bound : ∀ number ∈ numbers, number ≤ most
  attained : most ∈ numbers ∨ numbers = [] ∧ most = 0

theorem lawfulOrderMax : Std.LawfulOrderMax UInt64 := by
  refine .of_max_le_iff (fun a b c => ?_) (fun a b => ?_)
  · show (if a ≤ b then b else a) ≤ c ↔ a ≤ c ∧ b ≤ c
    split
    · rename_i within
      exact ⟨fun above => ⟨UInt64.le_trans within above, above⟩, And.right⟩
    · rename_i beyond
      have within := UInt64.le_of_lt (UInt64.not_le.mp beyond)
      exact ⟨fun above => ⟨above, UInt64.le_trans within above⟩, And.left⟩
  · show (if a ≤ b then b else a) = a ∨ (if a ≤ b then b else a) = b
    split
    · exact .inr rfl
    · exact .inl rfl

theorem maximum_max? (numbers : List UInt64) : Maximum numbers (numbers.max?.getD 0) := by
  have lawful := lawfulOrderMax
  cases found : numbers.max? with
  | none =>
    rw [List.max?_eq_none_iff] at found
    exact ⟨by simp [found], .inr ⟨found, rfl⟩⟩
  | some most =>
    obtain ⟨inside, bound⟩ := List.max?_eq_some_iff.mp found
    exact ⟨bound, .inl inside⟩

/-- More numbers have no smaller maximum. -/
theorem Maximum.mono {few many : List UInt64} {most most' : UInt64} (part : few <+: many)
    (first : Maximum few most) (second : Maximum many most') : most ≤ most' := by
  rcases first.attained with inside | ⟨-, rfl⟩
  · exact second.bound most (part.subset inside)
  · exact UInt64.zero_le

namespace Judge

variable [Host] {self : Judge} {req : JudgeRequest} {lang : Language}

/-- The test was executed and accepted. -/
def Accepted (req : JudgeRequest) (pair : TestCase × ExecOutcome) : Prop :=
  (classify pair.2 pair.1 req.comparer).1 = .accepted

/-- Which tests are executed: all of them or, if the run stops at failures, those up to and
including the first that is not accepted. -/
def ExactExtent (req : JudgeRequest) (outs : List ExecOutcome) : Prop :=
  (outs.length = req.tests.length ∧
      (req.stopOnFirstFailure = true → ∀ pair ∈ req.tests.zip outs, Accepted req pair)) ∨
    (outs.length ≤ req.tests.length ∧ req.stopOnFirstFailure = true ∧
      ∃ before last, req.tests.zip outs = before ++ [last] ∧ (∀ pair ∈ before, Accepted req pair) ∧
        ¬ Accepted req last)

/-- What a result says about the tests that were executed. -/
structure Summarises (req : JudgeRequest) (pairs : List (TestCase × ExecOutcome))
    (result : JudgeResult) : Prop where
  tests : result.tests.map (fun recorded =>
      (recorded.name, recorded.verdict, recorded.timeMs, recorded.memoryKb)) =
    pairs.map fun pair => (pair.1.name, (classify pair.2 pair.1 req.comparer).1,
      pair.2.cpuTimeMs, pair.2.memoryKb)
  failedTest : result.failedTest = (firstFailed req pairs).map fun pair => pair.1.name
  verdict : result.verdict =
    (firstFailed req pairs).elim .accepted fun pair => (classify pair.2 pair.1 req.comparer).1
  timeMs : Maximum (pairs.map fun pair => pair.2.cpuTimeMs) result.timeMs
  memoryKb : Maximum (pairs.map fun pair => pair.2.memoryKb) result.memoryKb

/-- The result of a run that executed these commands. -/
inductive Specified (self : Judge) (req : JudgeRequest) (lang : Language) (ran : List Execution)
    (result : JudgeResult) : Prop
  | compileError {step : Step} {out : ExecOutcome} (found : lang.compile = some step)
      (compile : ran = [(self.compileSpec lang step, [], .ok out)]) (failed : out.status ≠ .ok)
      (verdict : result.verdict = .compileError) (tests : result.tests = [])
      (failedTest : result.failedTest = none) (testsTotal : result.testsTotal = req.tests.length)
  | tested {compile : List Execution} {compileOutput : Option String} {outs : List ExecOutcome}
      (compiled : Compiled self lang compile compileOutput) (extent : ExactExtent req outs)
      (tests : ran = compile ++ (req.tests.zip outs).map (testExecution (self.runSpec lang req)))
      (summary : Summarises req (req.tests.zip outs) result)
      (testsTotal : result.testsTotal = req.tests.length)
      (accepted : result.verdict = .accepted ↔
        outs.length = req.tests.length ∧ ∀ pair ∈ req.tests.zip outs, Accepted req pair)

/-! ### The result of a run -/

theorem firstFailed_eq_none {pairs : List (TestCase × ExecOutcome)} :
    firstFailed req pairs = none ↔ ∀ pair ∈ pairs, Accepted req pair := by
  simp [firstFailed, List.find?_eq_none, Accepted]

theorem firstFailed_ne {pairs : List (TestCase × ExecOutcome)} {pair : TestCase × ExecOutcome}
    (found : firstFailed req pairs = some pair) : ¬ Accepted req pair := by
  simpa [Accepted] using List.find?_some found

/-- **A run that stops at failures stops at the first of them.** -/
theorem Extent.exact {tests : List TestCase} {outs : List ExecOutcome}
    (extent : Extent req tests outs) :
    (outs.length = tests.length ∧
        (req.stopOnFirstFailure = true → ∀ pair ∈ tests.zip outs, Accepted req pair)) ∨
      (outs.length ≤ tests.length ∧ req.stopOnFirstFailure = true ∧
        ∃ before last, tests.zip outs = before ++ [last] ∧ (∀ pair ∈ before, Accepted req pair) ∧
          ¬ Accepted req last) := by
  induction extent with
  | nil => exact .inl ⟨rfl, fun _ _ inside => absurd inside List.not_mem_nil⟩
  | @stop test rest out fails stops =>
    exact .inr ⟨by simp, stops, [], (test, out), by simp, by simp, fails⟩
  | @next test rest out outs goesOn later ih =>
    have here (stops : req.stopOnFirstFailure = true) : Accepted req (test, out) := by
      rcases goesOn with accepted | never
      · exact accepted
      · cases stops.symm.trans never
    rcases ih with ⟨all, accepted⟩ | ⟨fits, stops, before, last, split, accepted, fails⟩
    · refine .inl ⟨congrArg Nat.succ all, fun stops pair inside => ?_⟩
      rcases List.mem_cons.mp inside with rfl | inside
      · exact here stops
      · exact accepted stops pair inside
    · refine .inr ⟨Nat.succ_le_succ fits, stops, (test, out) :: before, last, ?_, ?_, fails⟩
      · rw [List.zip_cons_cons, split, List.cons_append]
      · intro pair inside
        rcases List.mem_cons.mp inside with rfl | inside
        · exact here stops
        · exact accepted pair inside

/-- The result of executed tests says what they did. -/
theorem summarises (self : Judge) (req : JudgeRequest) (total : Nat) (compileOutput : Option String)
    (pairs : List (TestCase × ExecOutcome)) :
    Summarises req pairs
      (finalResult total compileOutput (self.executedRun req [] none pairs)) where
  tests := self.executedRun_map (fun _ _ => rfl) [] none pairs
  failedTest := self.executedRun_failed req [] none pairs
  verdict := by
    show (List.find? _ (List.map TestResult.verdict _)).getD _ = _
    rw [executedRun_verdicts, List.map_nil, List.nil_append, List.find?_map]
    show (Option.map _ (firstFailed req pairs)).getD _ = _
    cases firstFailed req pairs <;> rfl
  timeMs := by
    have times : (self.executedRun req [] none pairs).1.map TestResult.timeMs =
        pairs.map fun pair => pair.2.cpuTimeMs :=
      self.executedRun_map (fun _ _ => rfl) [] none pairs
    rw [← times]
    exact maximum_max? _
  memoryKb := by
    have sizes : (self.executedRun req [] none pairs).1.map TestResult.memoryKb =
        pairs.map fun pair => pair.2.memoryKb :=
      self.executedRun_map (fun _ _ => rfl) [] none pairs
    rw [← sizes]
    exact maximum_max? _

/-- Accepted means that there is no first failure. -/
theorem Summarises.accepted_iff {pairs : List (TestCase × ExecOutcome)} {result : JudgeResult}
    (summary : Summarises req pairs result) :
    result.verdict = .accepted ↔ ∀ pair ∈ pairs, Accepted req pair := by
  rw [summary.verdict, ← firstFailed_eq_none]
  cases found : firstFailed req pairs with
  | none => simp
  | some pair => exact iff_of_false (firstFailed_ne found) (Option.some_ne_none pair)

/-- Accepted means that every test was executed and accepted. -/
theorem accepted_iff {outs : List ExecOutcome} {result : JudgeResult}
    (extent : ExactExtent req outs) (summary : Summarises req (req.tests.zip outs) result) :
    result.verdict = .accepted ↔
      outs.length = req.tests.length ∧ ∀ pair ∈ req.tests.zip outs, Accepted req pair := by
  rw [summary.accepted_iff]
  refine ⟨fun accepted => ⟨?_, accepted⟩, And.right⟩
  rcases extent with ⟨all, -⟩ | ⟨-, -, before, last, split, -, fails⟩
  · exact all
  · exact absurd (accepted last (by simp [split])) fails

theorem Executed.specified {ran : List Execution} {result : JudgeResult}
    (executed : Executed self req lang ran result) : Specified self req lang ran result := by
  cases executed with
  | compileFailed found compile failed => exact .compileError found compile failed rfl rfl rfl rfl
  | @tested compile compileOutput outs compiled extent tests =>
    have summary := summarises self req req.tests.length compileOutput (req.tests.zip outs)
    exact .tested compiled extent.exact tests summary rfl (accepted_iff extent.exact summary)

/-- A run none of whose calls failed returns a result. -/
theorem returns_of_answered {progress : Bool} {transcript : List (Exchange Call.Answer)}
    {value : Except JudgeError JudgeResult} (known : self.languages.get req.language = some lang)
    (follows : Follows (self.judge req progress) transcript (.pure value))
    (answered : ∀ exchange ∈ transcript, ¬ Failed exchange) : ∃ result, value = .ok result := by
  obtain ⟨accepts, returns⟩ := (self.judge_custody known).of_returns follows
  have life := lifecycle_of_accepts accepts returns
  cases value with
  | ok result => exact ⟨result, rfl⟩
  | error e =>
    obtain ⟨exchange, inside, failed⟩ := life.error_iff.mp ⟨e, rfl⟩
    exact absurd failed (answered exchange (List.mem_of_mem_filter inside))

/-- **The functional specification of judging.** Without an infrastructure error a run returns a
result: a compile error, with no test executed, if the compile step did not succeed; otherwise the
summary of the tests that were executed once each, in order, with one command and their own inputs,
all of them or up to and including the first that was not accepted. -/
theorem judging_specified (self : Judge) {req : JudgeRequest} {lang : Language}
    {progress : Bool} {transcript : List (Exchange Call.Answer)}
    {value : Except JudgeError JudgeResult} (known : self.languages.get req.language = some lang)
    (follows : Follows (self.judge req progress) transcript (.pure value))
    (answered : ∀ exchange ∈ transcript, ¬ Failed exchange) :
    ∃ result, value = .ok result ∧ Specified self req lang (executions transcript) result := by
  obtain ⟨result, rfl⟩ := returns_of_answered known follows answered
  obtain ⟨lang', known', executed⟩ := judge_executes follows
  cases known.symm.trans known'
  exact ⟨result, rfl, executed.specified⟩

end Judge

/-- No call fails on the sample sandboxes. -/
theorem sampleSandbox_answered {α : Type} (status : ExecStatus) (stdout stderr : String)
    (program : JudgeM α) :
    ∀ exchange ∈ Program.transcript (sampleSandbox status stdout stderr) [] program,
      ¬ Failed exchange := by
  rintro ⟨request, answer⟩ inside failed
  obtain ⟨history, same⟩ := mem_transcript inside
  rw [same] at failed
  cases request <;> obtain ⟨e, none⟩ := failed <;> cases none

/-- A wrong answer to the second of three tests, in Python. -/
theorem judging_specified_sample :
    letI := plainHost
    ∃ result, sampleJudge.result (mixedRequest "python") false (sampleSandbox .ok "2\n" "") =
        .ok result ∧ result.verdict = .wrongAnswer ∧ result.failedTest = some "02" ∧
      Judge.Specified sampleJudge (mixedRequest "python") python
        (executions (Program.transcript (sampleSandbox .ok "2\n" "") []
          (sampleJudge.judge (mixedRequest "python") false))) result := by
  let host := plainHost
  have follows := follows_transcript (sampleSandbox .ok "2\n" "") []
    (sampleJudge.judge (mixedRequest "python") false)
  have known : sampleJudge.languages.get "python" = some python := rfl
  obtain ⟨result, returned, specified⟩ :=
    Judge.judging_specified sampleJudge known follows (sampleSandbox_answered _ _ _ _)
  cases returned
  exact ⟨_, rfl, rfl, rfl, specified⟩

end Codexec
