/-
**The pipeline as a tree of calls.**

One equation for each part of the pipeline, which says which call comes next and what follows each
answer, and for runs on a sandbox whose answers are a function of the calls so far. The proofs about
`judge` rewrite with these and never unfold the do-blocks.
-/

import Codexec.Judge.Pipeline

namespace Codexec

open Codexec.Library Program

/-! ### The three kinds of call -/

section Calls

variable {α : Type}

/-- A program after a progress event that may have no listener. -/
def told (progress : Bool) (event : Progress) (program : JudgeM α) : JudgeM α :=
  if progress then .call (.notify event) fun _ => program else program

/-- What follows a call of a run that stops at the first sandbox error. -/
def onAnswer {β : Type} (next : β → JudgeM (Except SandboxError α)) :
    Except SandboxError β → JudgeM (Except SandboxError α)
  | .ok value => next value
  | .error e => .pure (.error e)

/-- The calls of such an event. -/
def toldCalls (progress : Bool) (event : Progress) : List Call :=
  if progress then [.notify event] else []

theorem run_told (sandbox : Environment Call.Answer) (history : List Call) (progress : Bool)
    (event : Progress) (program : JudgeM α) :
    Program.run sandbox history (told progress event program) =
      Program.run sandbox (history ++ toldCalls progress event) program := by
  unfold told toldCalls
  cases progress
  · rw [if_neg Bool.false_ne_true, if_neg Bool.false_ne_true, List.append_nil]
  · rfl

theorem run_writeFile_bind (name : String) (contents : Bytes) (rest : Unit → BoxM α) :
    (writeFile name contents >>= rest).run =
      .call (.writeFile name contents) (onAnswer fun done => (rest done).run) := by
  show Program.call _ _ = _
  congr 1
  funext answer
  cases answer <;> rfl

theorem run_exec_bind (spec : ExecSpec) (stdin : Bytes) (rest : ExecOutcome → BoxM α) :
    (exec spec stdin >>= rest).run =
      .call (.exec spec stdin) (onAnswer fun out => (rest out).run) := by
  show Program.call _ _ = _
  congr 1
  funext answer
  cases answer <;> rfl

theorem run_notify_bind (progress : Bool) (event : Progress) (rest : Unit → BoxM α) :
    (notify progress event >>= rest).run = told progress event (rest ()).run := by
  unfold notify told
  cases progress <;> rfl

theorem run_bind_pure {β : Type} (first : BoxM β) (value : β → α) :
    (first >>= fun result => pure (value result)).run =
      first.run.bind fun answer => .pure (answer.map value) := by
  show Program.bind _ _ = Program.bind _ _
  congr 1
  funext answer
  cases answer <;> rfl

end Calls

namespace Judge

variable [Host] (self : Judge)

/-! ### The loop -/

section Loop

variable (req : JudgeRequest) (progress : Bool) (spec : ExecSpec) (total i : Nat)
  (results : List TestResult) (failedTest : Option String)

theorem runLoop_nil :
    (self.runLoop req progress spec total i results failedTest []).run =
      .pure (.ok (results, failedTest)) := rfl

/-- **One round**: execute, record, report, and go on unless this was a failure to stop at. -/
theorem runLoop_cons (test : TestCase) (rest : List TestCase) :
    (self.runLoop req progress spec total i results failedTest (test :: rest)).run =
      .call (.exec spec test.input) (onAnswer fun out =>
        told progress (.running (i + 1) total)
          (if firstFailure req failedTest test out && req.stopOnFirstFailure then
            .pure (.ok (results ++ [self.testResult req failedTest test out],
              nextFailed req failedTest test out))
          else
            (self.runLoop req progress spec total (i + 1)
              (results ++ [self.testResult req failedTest test out])
              (nextFailed req failedTest test out) rest).run)) := by
  rw [runLoop, run_exec_bind]
  congr 1
  funext answer
  congr 1
  funext out
  rw [run_notify_bind]
  congr 1

end Loop

/-! ### Around the loop -/

variable (lang : Language) (req : JudgeRequest) (progress : Bool)

theorem runTests_run (compileOutput : Option String) :
    (self.runTests lang req progress compileOutput).run =
      told progress (.running 0 req.tests.length)
        ((self.runLoop req progress (self.runSpec lang req) req.tests.length 0 [] none
          req.tests).run.bind fun answer =>
            .pure (answer.map (finalResult req.tests.length compileOutput))) := by
  rw [runTests, run_notify_bind, run_bind_pure]

/-- What follows the compile step. -/
def afterCompile (out : ExecOutcome) : JudgeM (Except SandboxError JudgeResult) :=
  let text := excerpt out.stdout self.cfg.compileOutputBytes
  if out.status = .ok then
    (self.runTests lang req progress ((some text).filter fun kept => !kept.isEmpty)).run
  else .pure (.ok (compileFailure req.tests.length out.status text))

/-- What follows the source file. -/
def afterWrite : JudgeM (Except SandboxError JudgeResult) :=
  match lang.compile with
  | none => (self.runTests lang req progress none).run
  | some step =>
    told progress .compiling
      (.call (.exec (self.compileSpec lang step) []) (onAnswer (self.afterCompile lang req progress)))

theorem judgeInBox_run :
    (self.judgeInBox lang req progress).run =
      .call (.writeFile lang.sourceFile (utf8 req.source))
        (onAnswer fun _ => self.afterWrite lang req progress) := by
  rw [judgeInBox, run_writeFile_bind]
  congr 1
  funext answer
  congr 1
  funext _
  unfold afterWrite
  cases lang.compile with
  | none => rfl
  | some step =>
    simp only []
    rw [run_notify_bind, run_exec_bind]
    congr 2

/-- What follows the acquisition of a box. -/
def afterAcquire (lang : Language) :
    Except SandboxError Unit → JudgeM (Except JudgeError JudgeResult)
  | .error e => .pure (.error (.sandbox e))
  | .ok () =>
    (self.judgeInBox lang req progress).run.bind fun result =>
      .call .release fun _ => .pure (result.mapError JudgeError.sandbox)

/-- The calls before the compile step. -/
def callsToCompile : List Call :=
  [.acquire, .writeFile lang.sourceFile (utf8 req.source)] ++ toldCalls progress .compiling

/-- The calls before the first test. -/
def callsToTests : List Call :=
  (match lang.compile with
    | none => [.acquire, .writeFile lang.sourceFile (utf8 req.source)]
    | some step =>
      callsToCompile lang req progress ++ [.exec (self.compileSpec lang step) []]) ++
    toldCalls progress (.running 0 req.tests.length)

theorem judge_of_unknown (unknown : self.languages.get req.language = none) :
    self.judge req progress = .pure (.error (.unknownLanguage req.language)) := by
  rw [judge, unknown]

theorem judge_of_known {lang : Language} (known : self.languages.get req.language = some lang) :
    self.judge req progress = .call .acquire (self.afterAcquire req progress lang) := by
  rw [judge, known]
  rfl

/-! ### Runs on a sandbox -/

variable (sandbox : Environment Call.Answer)

/-- What `judge` returns on a sandbox. -/
def result : Except JudgeError JudgeResult :=
  (Program.run sandbox [] (self.judge req progress)).1

/-- The calls `judge` makes on a sandbox. -/
def calls : List Call := (Program.run sandbox [] (self.judge req progress)).2

variable {lang : Language}

/-- A run that gets no box makes no other call. -/
theorem run_judge_of_refused (known : self.languages.get req.language = some lang)
    {e : SandboxError} (refused : sandbox [] .acquire = .error e) :
    Program.run sandbox [] (self.judge req progress) =
      (.error (.sandbox e), [.acquire]) := by
  rw [judge_of_known self req progress known, Program.run, refused]
  rfl

/-- A run on an acquired box ends with the release, whose answer does not matter. -/
theorem run_judge_of_acquired (known : self.languages.get req.language = some lang)
    (acquired : sandbox [] .acquire = .ok ()) :
    Program.run sandbox [] (self.judge req progress) =
      ((Program.run sandbox [.acquire] (self.judgeInBox lang req progress).run).1.mapError
          JudgeError.sandbox,
        (Program.run sandbox [.acquire] (self.judgeInBox lang req progress).run).2 ++
          [.release]) := by
  rw [judge_of_known self req progress known, Program.run, acquired, afterAcquire, run_bind]
  rfl

theorem run_judgeInBox :
    Program.run sandbox [.acquire] (self.judgeInBox lang req progress).run =
      Program.run sandbox [.acquire, .writeFile lang.sourceFile (utf8 req.source)]
        (onAnswer (fun _ => self.afterWrite lang req progress)
          (sandbox [.acquire] (.writeFile lang.sourceFile (utf8 req.source)))) := by
  rw [judgeInBox_run, Program.run]
  rfl

theorem run_afterWrite {step : Step} (compiled : lang.compile = some step) :
    Program.run sandbox [.acquire, .writeFile lang.sourceFile (utf8 req.source)]
        (self.afterWrite lang req progress) =
      Program.run sandbox
        (callsToCompile lang req progress ++ [.exec (self.compileSpec lang step) []])
        (onAnswer (self.afterCompile lang req progress)
          (sandbox (callsToCompile lang req progress) (.exec (self.compileSpec lang step) []))) := by
  rw [afterWrite, compiled]
  simp only []
  rw [run_told, Program.run]
  rfl

end Judge

end Codexec
