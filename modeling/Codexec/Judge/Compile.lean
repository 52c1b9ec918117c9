/-
**A warning-heavy compile.**

When isolate reports the compile step as a success, the outcome is decided by the amount of output:
the compile spec hands its keep-limit to `read_capped` as an output limit, so a compiler that prints
more is reported with `OutputLimit`, and `judge_in_box` takes any status but `Ok` for a failed
compile. `compile_succeeds_iff` states for which outputs the tests are run.
-/

import Codexec.Judge.Execution
import Codexec.Judge.Isolate

namespace Codexec

open Codexec.Library Program

namespace Judge

variable [Host] (self : Judge)

/-- The output is only truncated: no result is a compile error, the kept output is its beginning,
and the tests are run. -/
structure OnlyTruncated (judge : Judge) (req : JudgeRequest) (progress : Bool) (lang : Language)
    (sandbox : Environment Call.Answer) (output : Bytes) : Prop where
  verdict : ∀ result, judge.result req progress sandbox = .ok result →
    result.verdict ≠ .compileError
  kept : ∀ result, judge.result req progress sandbox = .ok result →
    result.compileOutput = (some (excerpt (output.take judge.cfg.compileOutputBytes)
      judge.cfg.compileOutputBytes)).filter fun kept => !kept.isEmpty
  run : ∀ test ∈ req.tests.head?,
    .exec (judge.runSpec lang req) test.input ∈ judge.calls req progress sandbox

section

variable {req : JudgeRequest} {progress : Bool} {lang : Language} {step : Step}
  {sandbox : Environment Call.Answer} {out : ExecOutcome}

/-- A run whose compile step was executed. -/
theorem run_judge_of_compiled (known : self.languages.get req.language = some lang)
    (compiled : lang.compile = some step) (acquired : sandbox [] .acquire = .ok ())
    (written : sandbox [.acquire] (.writeFile lang.sourceFile (utf8 req.source)) = .ok ())
    (answer : sandbox (callsToCompile lang req progress)
      (.exec (self.compileSpec lang step) []) = .ok out) :
    run sandbox [] (self.judge req progress) =
      ((run sandbox (callsToCompile lang req progress ++
          [.exec (self.compileSpec lang step) []]) (self.afterCompile lang req progress out)).1.mapError
            JudgeError.sandbox,
        (run sandbox (callsToCompile lang req progress ++
          [.exec (self.compileSpec lang step) []]) (self.afterCompile lang req progress out)).2 ++
            [.release]) := by
  have boxed : run sandbox [.acquire] (self.judgeInBox lang req progress).run =
      run sandbox (callsToCompile lang req progress ++ [.exec (self.compileSpec lang step) []])
        (self.afterCompile lang req progress out) := by
    rw [run_judgeInBox, written]
    show run sandbox _ (self.afterWrite lang req progress) = _
    rw [self.run_afterWrite req progress sandbox compiled, answer]
    rfl
  rw [self.run_judge_of_acquired req progress sandbox known acquired, boxed]

/-- The first test is executed right after the compile step. -/
theorem runTests_calls {compileOutput : Option String} {history : List Call} {test : TestCase}
    (first : req.tests.head? = some test) :
    .exec (self.runSpec lang req) test.input ∈
      (run sandbox history (self.runTests lang req progress compileOutput).run).2 := by
  obtain ⟨rest, tests⟩ : ∃ rest, req.tests = test :: rest := by
    cases same : req.tests with
    | nil =>
      rw [same] at first
      cases first
    | cons head rest =>
      rw [same] at first
      cases first
      exact ⟨rest, rfl⟩
  rw [runTests_run, run_told, run_bind, tests, runLoop_cons]
  refine (run_history _ _ _).subset ?_
  rw [run]
  exact (run_history _ _ _).subset (List.mem_append_right _ List.mem_cons_self)

/-- After a compile step with status `Ok` no result is a compile error. -/
theorem runTests_verdict {compileOutput : Option String} {history : List Call}
    {result : JudgeResult}
    (returned : (run sandbox history (self.runTests lang req progress compileOutput).run).1 =
      .ok result) :
    result.verdict ≠ .compileError ∧ result.compileOutput = compileOutput := by
  have follows := follows_transcript sandbox history
    (self.runTests lang req progress compileOutput).run
  rw [returned] at follows
  obtain ⟨outs, _, _, rfl⟩ := runTests_executes follows
  refine ⟨?_, rfl⟩
  rcases self.finalResult_verdict req _ _ _ with accepted | ⟨pair, _, same⟩
  · rw [accepted]
    exact Verdict.noConfusion
  · rw [same]
    exact classify_ne.2

end

section Compiled

variable {req : JudgeRequest} {progress : Bool} {lang : Language} {step : Step}
  {sandbox : Environment Call.Answer} {useCgroups : Bool} {id : Nat} {process : Process}
  {output : Bytes} (known : self.languages.get req.language = some lang)
  (compiled : lang.compile = some step) (acquired : sandbox [] .acquire = .ok ())
  (written : sandbox [.acquire] (.writeFile lang.sourceFile (utf8 req.source)) = .ok ())
  (executed : sandbox (callsToCompile lang req progress)
    (.exec (self.compileSpec lang step) []) =
      isolateExec useCgroups id (self.compileSpec lang step) process)
  (succeeds : Succeeds (self.compileSpec lang step).limits process output)

include known compiled acquired written executed succeeds

/-- The run goes on with the first bytes of the output, and with a status that depends on whether
these are all of it. -/
theorem run_judge_of_success : ∃ out,
    out.stdout = output.take self.cfg.compileOutputBytes ∧
      out.status = (if self.cfg.compileOutputBytes < output.length then .outputLimit else .ok) ∧
      run sandbox [] (self.judge req progress) =
        ((run sandbox (callsToCompile lang req progress ++
            [.exec (self.compileSpec lang step) []])
              (self.afterCompile lang req progress out)).1.mapError JudgeError.sandbox,
          (run sandbox (callsToCompile lang req progress ++
            [.exec (self.compileSpec lang step) []])
              (self.afterCompile lang req progress out)).2 ++ [.release]) := by
  have argv : (self.compileSpec lang step).argv ≠ [] :=
    (LanguageRegistry.get_accepted known).compile step compiled
  obtain ⟨out, answer, stdout, status⟩ := isolateExec_succeeds argv succeeds
  rw [answer] at executed
  exact ⟨out, stdout, status, self.run_judge_of_compiled known compiled acquired written executed⟩

/-- **More output than the keep-limit is a compile error.** -/
theorem result_of_long_output (long : self.cfg.compileOutputBytes < output.length) :
    ∃ text, self.result req progress sandbox =
      .ok (compileFailure req.tests.length .outputLimit text) := by
  obtain ⟨out, _, status, whole⟩ :=
    self.run_judge_of_success known compiled acquired written executed succeeds
  rw [if_pos long] at status
  refine ⟨excerpt out.stdout self.cfg.compileOutputBytes, ?_⟩
  rw [result, whole, afterCompile, status]
  rfl

/-- **A successful compile step is only truncated exactly when its output fits the keep-limit.** -/
theorem compile_succeeds_iff :
    self.OnlyTruncated req progress lang sandbox output ↔
      output.length ≤ self.cfg.compileOutputBytes := by
  constructor
  · intro onlyTruncated
    by_contra long
    obtain ⟨text, failed⟩ := self.result_of_long_output known compiled acquired written executed
      succeeds (Nat.lt_of_not_le long)
    exact onlyTruncated.verdict _ failed rfl
  · intro fits
    obtain ⟨out, stdout, status, whole⟩ :=
      self.run_judge_of_success known compiled acquired written executed succeeds
    rw [if_neg (Nat.not_lt.mpr fits)] at status
    rw [afterCompile, if_pos status] at whole
    have returned : ∀ result, self.result req progress sandbox = .ok result →
        (run sandbox (callsToCompile lang req progress ++
          [.exec (self.compileSpec lang step) []]) (self.runTests lang req progress
            ((some (excerpt out.stdout self.cfg.compileOutputBytes)).filter
              fun kept => !kept.isEmpty)).run).1 = .ok result := by
      intro result judged
      rw [Judge.result, whole] at judged
      revert judged
      generalize (run sandbox _ _).1 = value
      intro judged
      cases value with
      | error e => cases judged
      | ok other => exact congrArg Except.ok (Except.ok.inj judged)
    refine ⟨?_, ?_, ?_⟩
    · exact fun result judged => (self.runTests_verdict (returned result judged)).1
    · intro result judged
      rw [(self.runTests_verdict (returned result judged)).2, stdout]
    · intro test first
      rw [calls, whole]
      exact List.mem_append_left _ (self.runTests_calls first)

end Compiled

end Judge

/-! ### A compiler that prints warnings -/

/-- A process that succeeds and prints `output`. -/
def sampleProcess (output : Bytes) : Process where
  spawnError := none
  inTime := true
  stdout := [.ok output]
  stderr := []
  exit := .ok (some 0)
  metaText := some "max-rss:3000\n"

/-- A sandbox where isolate runs that process for every command. -/
def sampleIsolate [Host] (output : Bytes) : Environment Call.Answer :=
  fun _ request =>
    match request with
    | .acquire => .ok ()
    | .writeFile _ _ => .ok ()
    | .exec spec _ => isolateExec true 0 spec (sampleProcess output)
    | .release => .ok ()
    | .notify _ => ()

theorem parseMeta_sample : parseMeta "max-rss:3000\n" = [("max-rss", "3000")] := by decide

theorem sampleProcess_succeeds {output : Bytes} (printed : output ≠ []) {limits : ExecLimits}
    (memory : 3000 ≤ limits.memoryKb) : Succeeds limits (sampleProcess output) output := by
  have entries : parseMeta ((sampleProcess output).metaText.getD "") = [("max-rss", "3000")] :=
    parseMeta_sample
  have size : Meta.memoryKb [("max-rss", "3000")] = 3000 := by decide
  exact
    { spawned := rfl
      inTime := rfl
      stdout := ⟨[output], by simpa using printed, rfl, by simp⟩
      stderr := ⟨[], by simp, rfl⟩
      exit := rfl
      reported := by rw [entries]; decide
      noStatus := by rw [entries]; decide
      notKilled := by rw [entries]; decide
      memory := by rw [entries, size]; exact memory }

/-- The compile step of the sample language. -/
def rustc : Step := { argv := ["rustc", "main.rs"] }

theorem rust_known : sampleJudge.languages.get "rust" = some rust := by decide

theorem sampleIsolate_executed [Host] (output : Bytes) :
    sampleIsolate output (Judge.callsToCompile rust (sampleRequest "rust" "2\n") false)
        (.exec (sampleJudge.compileSpec rust rustc) []) =
      isolateExec true 0 (sampleJudge.compileSpec rust rustc) (sampleProcess output) := rfl

theorem compile_succeeds_iff_sample :
    letI := plainHost
    sampleJudge.OnlyTruncated (sampleRequest "rust" "2\n") false rust (sampleIsolate (utf8 "2\n"))
        (utf8 "2\n") ↔
      (utf8 "2\n").length ≤ sampleJudge.cfg.compileOutputBytes :=
  letI := plainHost
  sampleJudge.compile_succeeds_iff rust_known rfl rfl rfl (sampleIsolate_executed (utf8 "2\n"))
    (sampleProcess_succeeds (by decide) (by decide))

/-- A compiler that prints one byte more than the default keep-limit. -/
theorem warnings_fail_compile :
    letI := plainHost
    Succeeds (sampleJudge.compileSpec rust rustc).limits
        (sampleProcess (List.replicate 16385 0x77)) (List.replicate 16385 0x77) ∧
      ∃ result, sampleJudge.result (sampleRequest "rust" "2\n") false
          (sampleIsolate (List.replicate 16385 0x77)) = .ok result ∧
        result.verdict = .compileError := by
  let _ := plainHost
  have printed : (List.replicate 16385 0x77 : Bytes).length = 16385 := List.length_replicate
  have succeeds : Succeeds (sampleJudge.compileSpec rust rustc).limits
      (sampleProcess (List.replicate 16385 0x77)) (List.replicate 16385 0x77) :=
    sampleProcess_succeeds (List.ne_nil_of_length_pos (by rw [printed]; decide)) (by decide)
  have long : sampleJudge.cfg.compileOutputBytes < (List.replicate 16385 0x77 : Bytes).length := by
    rw [printed]
    decide
  obtain ⟨text, failed⟩ := sampleJudge.result_of_long_output rust_known rfl rfl rfl
    (sampleIsolate_executed _) succeeds long
  exact ⟨succeeds, _, failed, rfl⟩

end Codexec
