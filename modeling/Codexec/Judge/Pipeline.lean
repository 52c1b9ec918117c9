/-
**The judging pipeline**: compile, run each test, compare, stop at the first failure.

`judge` is a program over the calls on a sandbox. `judgeInBox` writes the source, compiles if the
language has a compile step, and hands over to `runTests`, whose loop `runLoop` carries the results
so far and the name of the first test that failed.
-/

import Codexec.Judge.Compare
import Codexec.Judge.Verdict
import Codexec.Judge.Language

namespace Codexec

open Codexec.Library

structure TestCase where
  name : String
  input : Bytes
  /-- `none` means "just execute": no comparison. -/
  expected : Option Bytes
  deriving DecidableEq

structure JudgeConfig where
  compileCpuTimeMs : UInt64 := 15000
  compileWallTimeMs : UInt64 := 40000
  compileMemoryKb : UInt64 := 1024 * 1024
  compileProcesses : Nat := 128
  /-- Bytes of compiler output kept. -/
  compileOutputBytes : Nat := 16 * 1024
  runProcesses : Nat := 64
  fileSizeKb : UInt64 := 64 * 1024
  /-- stdout above this is an output-limit violation. -/
  stdoutBytes : Nat := 16 * 1024 * 1024
  stderrBytes : Nat := 64 * 1024
  /-- Most bytes of input, expected, stdout and stderr copied into a `TestResult`. -/
  excerptBytes : Nat := 1024

structure JudgeRequest where
  language : String
  source : String
  tests : List TestCase
  /-- Problem limit before the language multiplier. -/
  timeLimitMs : UInt64
  memoryLimitKb : UInt64
  comparer : Comparer
  stopOnFirstFailure : Bool
  /-- Attach excerpts to every test (Run mode). -/
  captureOutput : Bool
  /-- Attach input, expected and stdout to the first failing test. -/
  showFailedInput : Bool

inductive JudgeError
  | unknownLanguage (language : String)
  /-- Infrastructure failure. The caller should retry, then report IE. -/
  | sandbox (error : SandboxError)
  deriving DecidableEq

/-- The engine without its sandbox, which is the environment of `judge`. -/
structure Judge where
  languages : LanguageRegistry
  cfg : JudgeConfig

/-- Lossy UTF-8 excerpt. -/
def excerpt (data : Bytes) (max : Nat) : String :=
  if data.length ≤ max then fromUtf8Lossy data
  else fromUtf8Lossy (data.take max) ++ s!"\n... [truncated, {data.length} bytes total]"

def classify [Host] (out : ExecOutcome) (test : TestCase) (comparer : Comparer) :
    Verdict × Option String :=
  match out.status with
  | .ok =>
    match test.expected with
    | none => (.accepted, none)
    | some expected =>
      match compare comparer expected out.stdout with
      | .ok () => (.accepted, none)
      | .error why => (.wrongAnswer, some why)
  | .nonZeroExit code => (.runtimeError, some s!"exit code {code}")
  | .signaled signal => (.runtimeError, some s!"killed by signal {signal}")
  | .timeLimit => (.timeLimitExceeded, none)
  | .wallTimeLimit => (.timeLimitExceeded, some "wall-clock limit (sleeping or blocked)")
  | .memoryLimit => (.memoryLimitExceeded, none)
  | .outputLimit => (.outputLimitExceeded, none)

/-- `(time_limit_ms as f64 * time_multiplier).ceil() as u64`. The source multiplies two `f64`s, so
its product is rounded (1000 ms × 1.1 gives 1100); here it is idealised as the exact product of the
limit and the multiplier (1101 for the `f64` nearest to 1.1). The casts saturate as in the source. -/
def cpuMs (timeLimitMs : UInt64) (timeMultiplier : ℚ) : UInt64 :=
  UInt64.ofNat (min ⌈(timeLimitMs.toNat : ℚ) * timeMultiplier⌉.toNat (2 ^ 64 - 1))

theorem cpuMs_natCast (limit : UInt64) (multiplier : Nat) :
    cpuMs limit multiplier = UInt64.ofNat (min (limit.toNat * multiplier) (2 ^ 64 - 1)) := by
  rw [cpuMs, ← Nat.cast_mul, Int.ceil_natCast, Int.toNat_natCast]

namespace Judge

variable (self : Judge)

def compileSpec (lang : Language) (step : Step) : ExecSpec where
  argv := step.argv
  env := step.env
  dirs := step.dirs
  limits :=
    { cpuTime := self.cfg.compileCpuTimeMs.toNat
      extraTime := 500
      wallTime := self.cfg.compileWallTimeMs.toNat
      memoryKb := self.cfg.compileMemoryKb
      processes := step.processes.getD self.cfg.compileProcesses
      fileSizeKb := max self.cfg.fileSizeKb (256 * 1024)
      stdoutBytes := self.cfg.compileOutputBytes
      stderrBytes := self.cfg.compileOutputBytes
      addressSpaceLimit := lang.addressSpaceLimit }
  stderrToStdout := true
  syscallFlags := step.syscallFlags

/-- The `u64` arithmetic of the wall-clock limit wraps, as in a release build. -/
def runSpec (lang : Language) (req : JudgeRequest) : ExecSpec where
  argv := lang.run.argv
  env := lang.run.env
  dirs := lang.run.dirs
  limits :=
    { cpuTime := (cpuMs req.timeLimitMs lang.timeMultiplier).toNat
      extraTime := 500
      wallTime := (cpuMs req.timeLimitMs lang.timeMultiplier * 2 + 1000).toNat
      memoryKb := req.memoryLimitKb
      processes := lang.run.processes.getD self.cfg.runProcesses
      fileSizeKb := self.cfg.fileSizeKb
      stdoutBytes := self.cfg.stdoutBytes
      stderrBytes := self.cfg.stderrBytes
      addressSpaceLimit := lang.addressSpaceLimit }
  stderrToStdout := false
  syscallFlags := lang.run.syscallFlags

variable [Host]

/-- Whether this outcome is the first failure of the run. -/
def firstFailure (req : JudgeRequest) (failedTest : Option String) (test : TestCase)
    (out : ExecOutcome) : Bool :=
  (classify out test req.comparer).1 != .accepted && failedTest.isNone

/-- `failed_test` after one more test. -/
def nextFailed (req : JudgeRequest) (failedTest : Option String) (test : TestCase)
    (out : ExecOutcome) : Option String :=
  if firstFailure req failedTest test out then some test.name else failedTest

/-- The result recorded for one executed test. -/
def testResult (req : JudgeRequest) (failedTest : Option String) (test : TestCase)
    (out : ExecOutcome) : TestResult :=
  let (verdict, message) := classify out test req.comparer
  let showIo :=
    req.captureOutput || (firstFailure req failedTest test out && req.showFailedInput)
  let n := self.cfg.excerptBytes
  { name := test.name
    verdict := verdict
    timeMs := out.cpuTimeMs
    memoryKb := out.memoryKb
    message := message
    input := if showIo then some (excerpt test.input n) else none
    expected := if showIo then test.expected.map (excerpt · n) else none
    stdout := if showIo then some (excerpt out.stdout n) else none
    stderr :=
      (if showIo || verdict == .runtimeError then some (excerpt out.stderr n) else none).filter
        fun text => !text.isEmpty }

/-- The loop over the tests, from test number `i` on. -/
def runLoop (req : JudgeRequest) (progress : Bool) (spec : ExecSpec) (total : Nat) :
    Nat → List TestResult → Option String → List TestCase →
      BoxM (List TestResult × Option String)
  | _, results, failedTest, [] => pure (results, failedTest)
  | i, results, failedTest, test :: rest => do
    let out ← exec spec test.input
    let results' := results ++ [self.testResult req failedTest test out]
    let failedTest' := nextFailed req failedTest test out
    notify progress (.running (i + 1) total)
    if firstFailure req failedTest test out && req.stopOnFirstFailure then
      pure (results', failedTest')
    else runLoop req progress spec total (i + 1) results' failedTest' rest

/-- The overall result of an executed run. -/
def finalResult (total : Nat) (compileOutput : Option String)
    (executed : List TestResult × Option String) : JudgeResult where
  verdict := ((executed.1.map TestResult.verdict).find? (· != .accepted)).getD .accepted
  timeMs := (executed.1.map TestResult.timeMs).max?.getD 0
  memoryKb := (executed.1.map TestResult.memoryKb).max?.getD 0
  failedTest := executed.2
  compileOutput := compileOutput
  tests := executed.1
  testsTotal := total

/-- Everything after the compile step. -/
def runTests (lang : Language) (req : JudgeRequest) (progress : Bool)
    (compileOutput : Option String) : BoxM JudgeResult := do
  let total := req.tests.length
  notify progress (.running 0 total)
  let executed ← self.runLoop req progress (self.runSpec lang req) total 0 [] none req.tests
  pure (finalResult total compileOutput executed)

/-- The text in front of the output of a failed compile step. -/
def compileReason : ExecStatus → String
  | .timeLimit => "compilation timed out\n"
  | .wallTimeLimit => "compilation timed out\n"
  | .memoryLimit => "compiler ran out of memory\n"
  | _ => ""

/-- The result of a failed compile step. -/
def compileFailure (total : Nat) (status : ExecStatus) (text : String) : JudgeResult where
  verdict := .compileError
  timeMs := 0
  memoryKb := 0
  failedTest := none
  compileOutput := some (compileReason status ++ text)
  tests := []
  testsTotal := total

/-- `Judge::judge_in_box` -/
def judgeInBox (lang : Language) (req : JudgeRequest) (progress : Bool) : BoxM JudgeResult := do
  writeFile lang.sourceFile (utf8 req.source)
  match lang.compile with
  | none => self.runTests lang req progress none
  | some step => do
    notify progress .compiling
    let out ← exec (self.compileSpec lang step) []
    let text := excerpt out.stdout self.cfg.compileOutputBytes
    if out.status = .ok then
      self.runTests lang req progress ((some text).filter fun kept => !kept.isEmpty)
    else pure (compileFailure req.tests.length out.status text)

/-- `Judge::judge`. A failing release is only logged. -/
def judge (req : JudgeRequest) (progress : Bool) : JudgeM (Except JudgeError JudgeResult) :=
  match self.languages.get req.language with
  | none => .pure (.error (.unknownLanguage req.language))
  | some lang =>
    .call .acquire fun acquired =>
      match acquired with
      | .error e => .pure (.error (.sandbox e))
      | .ok () =>
        Program.bind (self.judgeInBox lang req progress).run fun result =>
          .call .release fun _ => .pure (result.mapError JudgeError.sandbox)

end Judge

/-! ### The judge of the unit tests -/

def python : Language where
  id := "python"
  displayName := "Python"
  sourceFile := "main.py"
  compile := none
  run := { argv := ["python3", "main.py"] }
  timeMultiplier := 3
  addressSpaceLimit := true

def rust : Language where
  id := "rust"
  displayName := "Rust"
  sourceFile := "main.rs"
  compile := some { argv := ["rustc", "main.rs"] }
  run := { argv := ["./main"] }
  timeMultiplier := 1
  addressSpaceLimit := true

theorem python_accepted : python.Accepted "python" :=
  ⟨rfl, rfl, by decide, by decide, by decide⟩

theorem rust_accepted : rust.Accepted "rust" := by
  refine ⟨rfl, rfl, by decide, ?_, by decide⟩
  intro step same
  cases same
  decide

def sampleJudge : Judge where
  languages :=
    { languages := [("python", python), ("rust", rust)]
      accepted := by
        intro entry inside
        simp only [List.mem_cons, List.not_mem_nil, or_false] at inside
        rcases inside with rfl | rfl
        · exact python_accepted
        · exact rust_accepted }
  cfg := {}

/-- One test: the input `1`, with a given answer. -/
def sampleTest (answer : String) : TestCase := ⟨"01", utf8 "1\n", some (utf8 answer)⟩

def sampleRequest (language answer : String) : JudgeRequest where
  language := language
  source := "src"
  tests := [sampleTest answer]
  timeLimitMs := 1000
  memoryLimitKb := 262144
  comparer := .lines
  stopOnFirstFailure := true
  captureOutput := false
  showFailedInput := false

/-- Three tests; a program that prints `2` passes the first and the last one. -/
def mixedTests : List TestCase :=
  [sampleTest "2\n", ⟨"02", utf8 "5\n", some (utf8 "3\n")⟩, ⟨"03", utf8 "7\n", some (utf8 "2\n")⟩]

def mixedRequest (language : String) : JudgeRequest :=
  { sampleRequest language "2\n" with tests := mixedTests }

/-- A sandbox where every command ends the same way. -/
def sampleSandbox (status : ExecStatus) (stdout stderr : String) : Program.Environment Call.Answer :=
  fun _ request =>
    match request with
    | .acquire => .ok ()
    | .writeFile _ _ => .ok ()
    | .exec _ _ => .ok ⟨status, utf8 stdout, utf8 stderr, 10, 20, 3000⟩
    | .release => .ok ()
    | .notify _ => ()

end Codexec
