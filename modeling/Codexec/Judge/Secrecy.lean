/-
**Answers never enter the sandbox.**

Two requests that differ only in the expected outputs of their tests are judged by the same calls:
exactly the same ones when every test is run, and the same ones up to the point where one of the
two stops otherwise. The simulation is `Lockstep` (or `Overlap`) of the two call trees, so it holds
whatever the sandbox answers; `expected` only reaches `classify`, which picks the branch that stops.
-/

import Codexec.Judge.Trace

namespace Codexec

open Codexec.Library Program

/-- Two tests that differ at most in the answer. -/
structure SameQuestion (test test' : TestCase) : Prop where
  name : test'.name = test.name
  input : test'.input = test.input
  shape : test'.expected.isSome = test.expected.isSome

/-- Two requests that differ at most in the answers of their tests. -/
structure SameQuestions (req req' : JudgeRequest) : Prop where
  others : req' = { req with tests := req'.tests }
  tests : List.Forall₂ SameQuestion req.tests req'.tests

section Calls

variable {α β : Type} {related : Except SandboxError α → Except SandboxError β → Prop}

theorem lockstep_told {progress : Bool} {event : Progress} {first : JudgeM (Except SandboxError α)}
    {second : JudgeM (Except SandboxError β)} (later : Lockstep related first second) :
    Lockstep related (told progress event first) (told progress event second) := by
  unfold told
  cases progress
  · exact later
  · exact .call fun _ => later

theorem overlap_told {progress : Bool} {event : Progress} {first : JudgeM (Except SandboxError α)}
    {second : JudgeM (Except SandboxError β)} (later : Overlap first second) :
    Overlap (told progress event first) (told progress event second) := by
  unfold told
  cases progress
  · exact later
  · exact .call fun _ => later

theorem overlap_onAnswer {γ : Type} {next : γ → JudgeM (Except SandboxError α)}
    {next' : γ → JudgeM (Except SandboxError β)}
    (later : ∀ value, Overlap (next value) (next' value)) (answer : Except SandboxError γ) :
    Overlap (onAnswer next answer) (onAnswer next' answer) := by
  cases answer with
  | ok value => exact later value
  | error e => exact .left _ _

end Calls

namespace Judge

variable [Host] (self : Judge)

section Loop

variable {req req' : JudgeRequest} {tests tests' : List TestCase} {progress : Bool}
  {spec : ExecSpec} {total : Nat}

/-- The loops of the two requests make the same calls until one of them stops. -/
theorem runLoop_overlap (same : List.Forall₂ SameQuestion tests tests') (i : Nat)
    (results results' : List TestResult) (failedTest failedTest' : Option String) :
    Overlap (self.runLoop req progress spec total i results failedTest tests).run
      (self.runLoop req' progress spec total i results' failedTest' tests').run := by
  induction same generalizing i results results' failedTest failedTest' with
  | nil => exact .left _ _
  | cons test _ ih =>
    rw [runLoop_cons, runLoop_cons, test.input]
    refine .call (overlap_onAnswer fun out => overlap_told ?_)
    split
    · exact .left _ _
    · split
      · exact .right _ _
      · exact ih _ _ _ _ _

/-- When neither request stops at a failure, the loops make the same calls throughout. -/
theorem runLoop_lockstep (same : List.Forall₂ SameQuestion tests tests')
    (runsOn : req.stopOnFirstFailure = false) (runsOn' : req'.stopOnFirstFailure = false) (i : Nat)
    (results results' : List TestResult) (failedTest failedTest' : Option String) :
    Lockstep (fun _ _ => True)
      (self.runLoop req progress spec total i results failedTest tests).run
      (self.runLoop req' progress spec total i results' failedTest' tests').run := by
  induction same generalizing i results results' failedTest failedTest' with
  | nil => exact .pure trivial
  | cons test _ ih =>
    rw [runLoop_cons, runLoop_cons, test.input, runsOn, runsOn']
    simp only [Bool.and_false]
    refine .call fun answer => ?_
    cases answer with
    | error e => exact .pure trivial
    | ok out => exact lockstep_told (ih _ _ _ _ _)

end Loop

variable {req req' : JudgeRequest} (same : SameQuestions req req') (lang : Language)
  (progress : Bool)

include same

omit [Host] in
theorem runSpec_same : self.runSpec lang req' = self.runSpec lang req := by
  rw [same.others]
  rfl

theorem runTests_overlap (compileOutput : Option String) :
    Overlap (self.runTests lang req progress compileOutput).run
      (self.runTests lang req' progress compileOutput).run := by
  rw [runTests_run, runTests_run, self.runSpec_same same, ← same.tests.length_eq]
  exact overlap_told ((self.runLoop_overlap same.tests _ _ _ _ _).map _ _)

theorem judgeInBox_overlap :
    Overlap (self.judgeInBox lang req progress).run (self.judgeInBox lang req' progress).run := by
  have source : req'.source = req.source := by rw [same.others]
  rw [judgeInBox_run, judgeInBox_run, source]
  refine .call (overlap_onAnswer fun _ => ?_)
  unfold afterWrite
  cases lang.compile with
  | none => exact self.runTests_overlap same lang progress _
  | some step =>
    refine overlap_told (.call (overlap_onAnswer fun out => ?_))
    unfold afterCompile
    simp only []
    split
    · exact self.runTests_overlap same lang progress _
    · exact .left _ _

section RunsOn

variable (runsOn : req.stopOnFirstFailure = false)

include runsOn

theorem runTests_lockstep (compileOutput : Option String) :
    Lockstep (fun _ _ => True) (self.runTests lang req progress compileOutput).run
      (self.runTests lang req' progress compileOutput).run := by
  have runsOn' : req'.stopOnFirstFailure = false := by
    rw [same.others]
    exact runsOn
  rw [runTests_run, runTests_run, self.runSpec_same same, ← same.tests.length_eq]
  refine lockstep_told ?_
  exact (self.runLoop_lockstep same.tests runsOn runsOn' _ _ _ _ _).bind
    fun _ _ _ => .pure trivial

theorem judgeInBox_lockstep :
    Lockstep (fun _ _ => True) (self.judgeInBox lang req progress).run
      (self.judgeInBox lang req' progress).run := by
  have source : req'.source = req.source := by rw [same.others]
  rw [judgeInBox_run, judgeInBox_run, source]
  refine .call fun answer => ?_
  cases answer with
  | error e => exact .pure trivial
  | ok done =>
    show Lockstep _ (self.afterWrite lang req progress) (self.afterWrite lang req' progress)
    unfold afterWrite
    cases lang.compile with
    | none => exact self.runTests_lockstep same lang progress runsOn _
    | some step =>
      refine lockstep_told (.call fun answer => ?_)
      cases answer with
      | error e => exact .pure trivial
      | ok out =>
        show Lockstep _ (self.afterCompile lang req progress out)
          (self.afterCompile lang req' progress out)
        unfold afterCompile
        simp only []
        split
        · exact self.runTests_lockstep same lang progress runsOn _
        · exact .pure trivial

end RunsOn

omit same

/-- **Answers never enter the sandbox.** On any sandbox whose outcomes are a function of the calls
made so far, two requests that differ only in their answers make the same calls when every test is
run; when they stop at a failure, the files and executions of one are a prefix of those of the
other. -/
theorem answers_never_enter_sandbox (sandbox : Environment Call.Answer)
    (same : SameQuestions req req') :
    (req.stopOnFirstFailure = false →
        self.calls req progress sandbox = self.calls req' progress sandbox) ∧
      (req.stopOnFirstFailure = true →
        (self.calls req progress sandbox).filter Call.isInput <+:
            (self.calls req' progress sandbox).filter Call.isInput ∨
          (self.calls req' progress sandbox).filter Call.isInput <+:
            (self.calls req progress sandbox).filter Call.isInput) := by
  have language : req'.language = req.language := by rw [same.others]
  unfold calls
  cases known : self.languages.get req.language with
  | none =>
    have known' := known
    rw [← language] at known'
    rw [judge_of_unknown self req progress known, judge_of_unknown self req' progress known']
    exact ⟨fun _ => rfl, fun _ => Or.inl List.prefix_rfl⟩
  | some lang =>
    have known' := known
    rw [← language] at known'
    cases acquired : sandbox [] .acquire with
    | error e =>
      rw [self.run_judge_of_refused req progress sandbox known acquired,
        self.run_judge_of_refused req' progress sandbox known' acquired]
      exact ⟨fun _ => rfl, fun _ => Or.inl List.prefix_rfl⟩
    | ok done =>
      rw [self.run_judge_of_acquired req progress sandbox known acquired,
        self.run_judge_of_acquired req' progress sandbox known' acquired]
      simp only []
      constructor
      · intro runsOn
        rw [((self.judgeInBox_lockstep same lang progress runsOn).run sandbox _).2]
      · intro _
        have released : [Call.release].filter Call.isInput = [] := rfl
        rw [List.filter_append, List.filter_append, released, List.append_nil, List.append_nil]
        rcases (self.judgeInBox_overlap same lang progress).run sandbox [.acquire] with
          shorter | shorter
        · exact Or.inl (shorter.filter _)
        · exact Or.inr (shorter.filter _)

end Judge

/-- The tests of the mixed request with another answer to the first one. -/
def otherAnswers (stops : Bool) : JudgeRequest :=
  { mixedRequest "rust" with
    tests := sampleTest "3\n" :: mixedTests.tail
    stopOnFirstFailure := stops }

/-- With one set of answers the first test fails, with the other one the second. -/
theorem answers_never_enter_sandbox_sample :
    letI := plainHost
    let calls := fun req => sampleJudge.calls req true (sampleSandbox .ok "2\n" "")
    calls { mixedRequest "rust" with stopOnFirstFailure := false } = calls (otherAnswers false) ∧
      ((calls (mixedRequest "rust")).filter Call.isInput <+:
          (calls (otherAnswers true)).filter Call.isInput ∨
        (calls (otherAnswers true)).filter Call.isInput <+:
          (calls (mixedRequest "rust")).filter Call.isInput) := by
  let host := plainHost
  have tests : List.Forall₂ SameQuestion mixedTests (sampleTest "3\n" :: mixedTests.tail) :=
    .cons ⟨rfl, rfl, rfl⟩ (.cons ⟨rfl, rfl, rfl⟩ (.cons ⟨rfl, rfl, rfl⟩ .nil))
  exact ⟨(sampleJudge.answers_never_enter_sandbox true (sampleSandbox .ok "2\n" "")
      ⟨rfl, tests⟩).1 rfl,
    (sampleJudge.answers_never_enter_sandbox true (sampleSandbox .ok "2\n" "")
      ⟨rfl, tests⟩).2 rfl⟩

end Codexec
