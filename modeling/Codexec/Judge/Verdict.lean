/-
**Verdicts and results.**

The outcome of one test and of a whole submission, with the two-letter codes that are stored and
sent to clients.
-/

import Mathlib.Data.List.Basic

namespace Codexec

/-- Final outcome of a submission or of one test. -/
inductive Verdict
  | accepted
  | wrongAnswer
  | timeLimitExceeded
  | memoryLimitExceeded
  | runtimeError
  | compileError
  | outputLimitExceeded
  | internalError
  deriving DecidableEq, Repr

namespace Verdict

/-- The stored form. -/
def code : Verdict → String
  | .accepted => "AC"
  | .wrongAnswer => "WA"
  | .timeLimitExceeded => "TLE"
  | .memoryLimitExceeded => "MLE"
  | .runtimeError => "RE"
  | .compileError => "CE"
  | .outputLimitExceeded => "OLE"
  | .internalError => "IE"

/-- Reads a stored code back. -/
def fromCode (code : String) : Option Verdict :=
  if code = "AC" then some .accepted
  else if code = "WA" then some .wrongAnswer
  else if code = "TLE" then some .timeLimitExceeded
  else if code = "MLE" then some .memoryLimitExceeded
  else if code = "RE" then some .runtimeError
  else if code = "CE" then some .compileError
  else if code = "OLE" then some .outputLimitExceeded
  else if code = "IE" then some .internalError
  else none

/-- **A stored verdict reads back as itself.** -/
@[simp] theorem fromCode_code (verdict : Verdict) : fromCode verdict.code = some verdict := by
  cases verdict <;> decide

theorem code_injective : Function.Injective code := by
  intro first second same
  have read := congrArg fromCode same
  rw [fromCode_code, fromCode_code] at read
  exact Option.some.inj read

/-- Only the internal error has the code `IE`. -/
theorem code_eq_IE {verdict : Verdict} : verdict.code = "IE" ↔ verdict = .internalError :=
  ⟨fun same => code_injective same, fun same => by rw [same]; rfl⟩

end Verdict

/-- What is reported about one executed test. The last four fields are excerpts. -/
structure TestResult where
  name : String
  verdict : Verdict
  timeMs : UInt64
  memoryKb : UInt64
  message : Option String
  input : Option String
  expected : Option String
  stdout : Option String
  stderr : Option String
  deriving DecidableEq

/-- What judging returns. -/
structure JudgeResult where
  verdict : Verdict
  /-- Maximum CPU time over executed tests. -/
  timeMs : UInt64
  /-- Maximum resident memory over executed tests. -/
  memoryKb : UInt64
  /-- Name of the first test that did not pass. -/
  failedTest : Option String
  compileOutput : Option String
  tests : List TestResult
  testsTotal : Nat
  deriving DecidableEq

end Codexec
