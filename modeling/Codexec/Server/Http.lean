/-
**The handlers of the HTTP API.**

A handler is a function of what the process has loaded, of the request, and of the store it calls;
its reply is a value or an `ApiError`. Bodies arrive parsed, headers as bytes.
-/

import Codexec.Server.Runs
import Codexec.Server.System
import Codexec.Judge.Isolate

namespace Codexec.Server

open Codexec Codexec.Library

/-- No authentication yet: every request acts as this user. -/
def localUser : String := "local"

def defaultRunTimeLimitMs : UInt64 := 1000

def defaultRunMemoryKb : UInt64 := 256 * 1024

def maxStdinBytes : Nat := 1024 * 1024

structure ApiError where
  status : Nat
  error : String
  deriving DecidableEq

namespace ApiError

def badRequest (msg : String) : ApiError := ⟨400, msg⟩

def notFound (what : String) : ApiError := ⟨404, what ++ " not found"⟩

def payloadTooLarge (msg : String) : ApiError := ⟨413, msg⟩

def serviceUnavailable (msg : String) : ApiError := ⟨503, msg⟩

/-- Whatever went wrong is only logged. -/
def internal : ApiError := ⟨500, "internal error"⟩

end ApiError

/-- A reply with status 202 and a `Location`. -/
structure Accepted (α : Type) where
  location : String
  body : α

/-- `ok_or_else(|| ApiError::not_found(what))` -/
def orNotFound {α : Type} (what : String) : Option α → Except ApiError α
  | some found => .ok found
  | none => .error (.notFound what)

section Handlers

variable [Host]

def checkSource (settings : Settings) (maxSourceBytes : Nat) (language source : String) :
    Except ApiError Unit := do
  let languages := settings.judge.languages
  if (languages.get language).isNone then
    throw (.badRequest ("unknown language " ++ Host.debugStr language ++ "; available: " ++
      ", ".intercalate (languages.languages.map Prod.fst)))
  if (trim source.toList).isEmpty then throw (.badRequest "source is empty")
  if maxSourceBytes < (utf8 source).length then
    throw (.payloadTooLarge s!"source exceeds {maxSourceBytes} bytes")

/-! ### Submissions -/

structure CreateSubmission where
  problem : String
  language : String
  source : String

/-- A byte that `HeaderValue::to_str` accepts. -/
def visibleAscii (byte : UInt8) : Bool := (0x20 ≤ byte && byte < 0x7F) || byte == 0x09

/-- `HeaderValue::to_str` -/
def toStr (value : Bytes) : Option (List Char) :=
  if value.all visibleAscii then some (value.map fun byte => Char.ofNat byte.toNat) else none

/-- The key under which a submission is stored, from the value of the header `idempotency-key`. -/
def idempotencyKey (header : Option Bytes) : Option String :=
  (((header.bind toStr).map trim).filter fun k =>
    !k.isEmpty && (utf8 (String.ofList k)).length ≤ 128).map fun k =>
      localUser ++ ":" ++ String.ofList k

/-- What `create_submission` stores, if it accepts the request. -/
def newSubmission (settings : Settings) (maxSourceBytes : Nat) (header : Option Bytes)
    (body : CreateSubmission) : Except ApiError NewSubmission := do
  let problem ← orNotFound "problem" (settings.problems.get body.problem)
  checkSource settings maxSourceBytes body.language body.source
  return {
    userId := localUser
    problem := problem.slug
    problemVersion := problem.version
    language := body.language
    source := body.source
    testsTotal := problem.tests.length
    idempotencyKey := idempotencyKey header }

/-- `create_submission`; a worker is woken if the submission is a new one. -/
def createSubmission (settings : Settings) (maxSourceBytes : Nat) (header : Option Bytes)
    (body : CreateSubmission) (world : World) (store : Store) :
    Except ApiError (Accepted Submission) × Store :=
  match newSubmission settings maxSourceBytes header body with
  | .error e => (.error e, store)
  | .ok new =>
    match store.insert world new with
    | (.error _, after) => (.error .internal, after)
    | (.ok (sub, _), after) => (.ok ⟨"/v1/submissions/" ++ sub.id, sub⟩, after)

/-! ### Problems -/

structure ProblemSummary where
  slug : String
  title : String
  difficulty : String
  tags : List String

structure Sample where
  name : String
  input : String
  output : String

/-- The reply of `get_problem`. -/
structure ProblemPage where
  slug : String
  title : String
  difficulty : String
  tags : List String
  timeLimitMs : UInt64
  memoryLimitMb : UInt64
  statement : String
  samples : List Sample
  testsTotal : Nat
  version : String

def summary (p : Problem) : ProblemSummary := ⟨p.slug, p.title, p.difficulty, p.tags⟩

def listProblems (settings : Settings) : List ProblemSummary :=
  settings.problems.rows.map summary

def sampleOf (t : TestCase) : Sample :=
  ⟨t.name, fromUtf8Lossy t.input, fromUtf8Lossy (t.expected.getD [])⟩

def page (p : Problem) : ProblemPage where
  slug := p.slug
  title := p.title
  difficulty := p.difficulty
  tags := p.tags
  timeLimitMs := p.timeLimitMs
  memoryLimitMb := p.memoryLimitKb / 1024
  statement := p.statement
  samples := p.samples.map sampleOf
  testsTotal := p.tests.length
  version := p.version

def getProblem (settings : Settings) (slug : String) : Except ApiError ProblemPage :=
  (orNotFound "problem" (settings.problems.get slug)).map page

/-! ### Runs -/

structure CreateRun where
  language : String
  source : String
  /-- Custom input. When absent and `problem` is set, the problem's samples are used. -/
  stdin : Option String
  /-- Supplies limits and the comparer. -/
  problem : Option String

/-- The one test of a run on custom input. -/
def custom (input : Bytes) : List TestCase := [⟨"custom", input, none⟩]

def testsOfRun : Option String → Option Problem → List TestCase
  | some stdin, _ => custom (utf8 stdin)
  | none, some p => if !p.sampleNames.isEmpty then p.samples else custom []
  | none, none => custom []

/-- The job of a run, if `create_run` accepts the request. -/
def newRun (settings : Settings) (maxSourceBytes : Nat) (body : CreateRun) :
    Except ApiError RunJob := do
  checkSource settings maxSourceBytes body.language body.source
  if body.stdin.any fun s => maxStdinBytes < (utf8 s).length then
    throw (.payloadTooLarge s!"stdin exceeds {maxStdinBytes} bytes")
  let problem ←
    match body.problem with
    | some slug => (orNotFound "problem" (settings.problems.get slug)).map some
    | none => .ok none
  return {
    id := ""
    language := body.language
    source := body.source
    tests := testsOfRun body.stdin problem
    timeLimitMs := (problem.map Problem.timeLimitMs).getD defaultRunTimeLimitMs
    memoryLimitKb := (problem.map Problem.memoryLimitKb).getD defaultRunMemoryKb
    comparer := (problem.map Problem.comparer).getD .lines }

/-- `create_run`; a worker is woken if the run is accepted. -/
def createRun (settings : Settings) (maxSourceBytes : Nat) (body : CreateRun) (newId : String)
    (now : Int64) (instant : Nat) (runs : RunStore) :
    Except ApiError (Accepted RunRecord) × RunStore :=
  match newRun settings maxSourceBytes body with
  | .error e => (.error e, runs)
  | .ok job =>
    match runs.submit job newId now instant with
    | (.error .queueFull, after) =>
      (.error (.serviceUnavailable "run queue is full, retry shortly"), after)
    | (.ok record, after) => (.ok ⟨"/v1/runs/" ++ record.id, record⟩, after)

def getRun (runs : RunStore) (id : String) : Except ApiError RunRecord :=
  orNotFound "run (results expire)" (runs.get id)

/-- The request of `handle_run`. -/
def requestOfRun (job : RunJob) : JudgeRequest where
  language := job.language
  source := job.source
  tests := job.tests
  timeLimitMs := job.timeLimitMs
  memoryLimitKb := job.memoryLimitKb
  comparer := job.comparer
  stopOnFirstFailure := false
  captureOutput := true
  showFailedInput := true

/-- The text of a `JudgeError`. -/
def errorText : JudgeError → String
  | .unknownLanguage language => "unknown language " ++ Host.debugStr language
  | .sandbox e => e.display

end Handlers

end Codexec.Server
