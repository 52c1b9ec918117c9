/-
**What a client reads.**

Submissions and runs are served as JSON, and the events of a submission as `text/event-stream`: for
each event its name and its JSON on a line of their own and a blank line, and now and then a comment
that keeps the connection alive. The JSON of a submission or a run reads back (`bodies_read_back`).
It has no line break in it, whatever a program has printed, so a client that splits the stream into
lines hears exactly the events that were sent (`events_read_back`).
-/

import Codexec.Judge.Values
import Codexec.Library.Split
import Codexec.Server.Broadcast
import Codexec.Server.Runs

namespace Codexec.Server

open Codexec Codexec.Library

/-! ### Bodies -/

section Bodies

variable {α : Type}

def ofStatus (status : Status) : Layer α := .ofText status.asStr

def readStatus (value : Layer α) : Option Status :=
  value.text.bind fun text =>
    [Status.queued, .compiling, .running, .done].find? fun status => status.asStr = text

@[simp] theorem readStatus_ofStatus (status : Status) :
    readStatus (ofStatus status : Layer α) = some status := by
  cases status <;> rfl

/-- `Serialize` for `Submission`. -/
def Submission.value (self : Submission) : Nested α :=
  .object ([("id", .ofText self.id), ("problem", .ofText self.problem),
    ("problem_version", .ofText self.problemVersion), ("language", .ofText self.language),
    ("status", ofStatus self.status),
    ("verdict", .orNull (self.verdict.map fun verdict => .ofText verdict.code)),
    ("time_ms", .orNull (self.timeMs.map fun ms => .ofNumber ms.toNat)),
    ("memory_kb", .orNull (self.memoryKb.map fun kb => .ofNumber kb.toNat)),
    ("failed_test", .orNull (self.failedTest.map .ofText)),
    ("tests_done", .ofNumber self.testsDone), ("tests_total", .ofNumber self.testsTotal)] ++
    Layer.present "compile_output" (self.compileOutput.map .ofText) ++
    Layer.present "tests" (self.tests.map fun tests => .array (tests.map TestResult.value)) ++
    [("attempt", .ofNumber self.attempt.toNat)] ++
    Layer.present "judge_version" (self.judgeVersion.map .ofText) ++
    [("created_at_ms", .ofNumber self.createdAtMs.toInt),
      ("judged_at_ms", .orNull (self.judgedAtMs.map fun ms => .ofNumber ms.toInt))])

def readU32 (value : Layer α) : Option UInt32 :=
  value.nat.bind fun n => if n < 2 ^ 32 then some (UInt32.ofNat n) else none

@[simp] theorem readU32_ofNumber (value : UInt32) :
    readU32 (.ofNumber value.toNat : Layer α) = some value := by
  show (if value.toNat < 2 ^ 32 then some (UInt32.ofNat value.toNat) else none) = _
  rw [if_pos value.toNat_lt, UInt32.ofNat_toNat]

def Submission.ofValue (value : Nested α) : Option Submission := do
  let id ← value.get Layer.text "id"
  let problem ← value.get Layer.text "problem"
  let problemVersion ← value.get Layer.text "problem_version"
  let language ← value.get Layer.text "language"
  let status ← value.get readStatus "status"
  let verdict ← value.get (Layer.nullable Layer.verdict) "verdict"
  let timeMs ← value.get (Layer.nullable Layer.u64) "time_ms"
  let memoryKb ← value.get (Layer.nullable Layer.u64) "memory_kb"
  let failedTest ← value.get (Layer.nullable Layer.text) "failed_test"
  let testsDone ← value.get Layer.nat "tests_done"
  let testsTotal ← value.get Layer.nat "tests_total"
  let compileOutput ← value.getPresent Layer.text "compile_output"
  let tests ← value.getPresent (Layer.items TestResult.ofValue) "tests"
  let attempt ← value.get readU32 "attempt"
  let judgeVersion ← value.getPresent Layer.text "judge_version"
  let createdAtMs ← value.get Layer.i64 "created_at_ms"
  let judgedAtMs ← value.get (Layer.nullable Layer.i64) "judged_at_ms"
  return ⟨id, problem, problemVersion, language, status, verdict, timeMs, memoryKb, failedTest,
    testsDone, testsTotal, compileOutput, tests, attempt, judgeVersion, createdAtMs, judgedAtMs⟩

theorem Submission.ofValue_value (self : Submission) :
    Submission.ofValue (self.value : Nested α) = some self := by
  have verdict : (self.value : Nested α).get
      (Layer.nullable Layer.verdict) "verdict" = some self.verdict :=
    Layer.get_of_lookup rfl (Layer.nullable_orNull Layer.verdict_code nofun _)
  have timeMs : (self.value : Nested α).get
      (Layer.nullable Layer.u64) "time_ms" = some self.timeMs :=
    Layer.get_of_lookup rfl (Layer.nullable_orNull Layer.u64_ofNumber nofun _)
  have memoryKb : (self.value : Nested α).get
      (Layer.nullable Layer.u64) "memory_kb" = some self.memoryKb :=
    Layer.get_of_lookup rfl (Layer.nullable_orNull Layer.u64_ofNumber nofun _)
  have failedTest : (self.value : Nested α).get
      (Layer.nullable Layer.text) "failed_test" = some self.failedTest :=
    Layer.get_of_lookup rfl (Layer.nullable_orNull Layer.text_ofText nofun _)
  have compileOutput : (self.value : Nested α).getPresent
      Layer.text "compile_output" = some self.compileOutput :=
    Layer.getPresent_of_lookup Layer.text_ofText (by simp [List.lookup_append, List.lookup_cons])
  have tests : (self.value : Nested α).getPresent
      (Layer.items TestResult.ofValue) "tests" = some self.tests :=
    Layer.getPresent_of_lookup (Layer.items_map TestResult.ofValue_value)
      (by simp [List.lookup_append, List.lookup_cons])
  have attempt : (self.value : Nested α).get readU32 "attempt" =
      some self.attempt :=
    Layer.get_of_lookup (by simp [List.lookup_append, List.lookup_cons])
      (readU32_ofNumber _)
  have judgeVersion : (self.value : Nested α).getPresent
      Layer.text "judge_version" = some self.judgeVersion :=
    Layer.getPresent_of_lookup Layer.text_ofText (by simp [List.lookup_append, List.lookup_cons])
  have createdAtMs : (self.value : Nested α).get Layer.i64 "created_at_ms" =
      some self.createdAtMs :=
    Layer.get_of_lookup (by simp [List.lookup_append, List.lookup_cons])
      (Layer.i64_ofNumber _)
  have judgedAtMs : (self.value : Nested α).get
      (Layer.nullable Layer.i64) "judged_at_ms" = some self.judgedAtMs :=
    Layer.get_of_lookup (by simp [List.lookup_append, List.lookup_cons])
      (Layer.nullable_orNull Layer.i64_ofNumber nofun _)
  unfold Submission.ofValue
  rw [verdict, timeMs, memoryKb, failedTest, compileOutput, tests, attempt, judgeVersion,
    createdAtMs, judgedAtMs]
  simp [Submission.value, Layer.get, List.lookup_cons]

/-- What is served of a run; the clock reading is skipped. -/
structure RunBody where
  id : String
  status : Status
  result : Option JudgeResult
  error : Option String
  createdAtMs : Int64
  deriving DecidableEq

def RunRecord.body (self : RunRecord) : RunBody where
  id := self.id
  status := self.status
  result := self.result
  error := self.error
  createdAtMs := self.createdAtMs

/-- `Serialize` for `RunRecord`. -/
def RunRecord.value (self : RunRecord) : Layer (Nested α) :=
  .object ([("id", .ofText self.id), ("status", ofStatus self.status)] ++
    Layer.present "result" (self.result.map JudgeResult.value) ++
    Layer.present "error" (self.error.map .ofText) ++
    [("created_at_ms", .ofNumber self.createdAtMs.toInt)])

def RunBody.ofValue (value : Layer (Nested α)) : Option RunBody := do
  let id ← value.get Layer.text "id"
  let status ← value.get readStatus "status"
  let result ← value.getPresent JudgeResult.ofValue "result"
  let error ← value.getPresent Layer.text "error"
  let createdAtMs ← value.get Layer.i64 "created_at_ms"
  return ⟨id, status, result, error, createdAtMs⟩

theorem RunBody.ofValue_value (record : RunRecord) :
    RunBody.ofValue (record.value : Layer (Nested α)) = some record.body := by
  have result : (record.value : Layer (Nested α)).getPresent JudgeResult.ofValue "result" =
      some record.result :=
    Layer.getPresent_of_lookup JudgeResult.ofValue_value
      (by simp [List.lookup_append, List.lookup_cons])
  have error : (record.value : Layer (Nested α)).getPresent Layer.text "error" =
      some record.error :=
    Layer.getPresent_of_lookup Layer.text_ofText (by simp [List.lookup_append, List.lookup_cons])
  have createdAtMs : (record.value : Layer (Nested α)).get Layer.i64 "created_at_ms" =
      some record.createdAtMs :=
    Layer.get_of_lookup (by simp [List.lookup_append, List.lookup_cons]) (Layer.i64_ofNumber _)
  unfold RunBody.ofValue
  rw [result, error, createdAtMs]
  simp [RunRecord.value, Layer.get, List.lookup_cons, RunRecord.body]

end Bodies

/-- There is nothing below the last layer. -/
def printNothing : Empty → List Char := nofun

def printBody : Nested Empty → List Char :=
  printLayer (printLayer (printLayer (printLayer printNothing)))

def readBody : List Char → Option (Nested Empty × List Char) :=
  readLayer (readLayer (readLayer (readLayer fun _ => none)))

theorem body_writes : Writes printBody readBody :=
  (writes_nothing printNothing _).layer.layer.layer.layer

theorem body_plain : Plain printBody := by
  have nothing : Plain printNothing := nofun
  exact nothing.layer.layer.layer.layer

/-- The JSON of a submission. -/
def Submission.json (self : Submission) : String := String.ofList (printBody self.value)

def readSubmission (text : String) : Option Submission :=
  (readWhole readBody text).bind Submission.ofValue

/-- The JSON of a run. -/
def RunRecord.json (self : RunRecord) : String := String.ofList (printLayer printBody self.value)

def readRun (text : String) : Option RunBody :=
  (readWhole (readLayer readBody) text).bind RunBody.ofValue

theorem readSubmission_json (sub : Submission) : readSubmission sub.json = some sub := by
  rw [readSubmission, Submission.json, body_writes.whole, Option.bind_some,
    Submission.ofValue_value]

/-- **What is served reads back**: the JSON of a submission, and of a run, says all of it, whatever
the texts in it are. -/
theorem bodies_read_back :
    (∀ sub : Submission, readSubmission sub.json = some sub) ∧
      ∀ record : RunRecord, readRun record.json = some record.body := by
  refine ⟨readSubmission_json, fun record => ?_⟩
  rw [readRun, RunRecord.json, body_writes.layer.whole, Option.bind_some, RunBody.ofValue_value]

example : RunRecord.json ⟨"r1", .queued, none, some "a\nb", -5, 7⟩ =
    "\x7b\"id\":\"r1\",\"status\":\"QUEUED\",\"error\":\"a\\nb\",\"created_at_ms\":-5\x7d" := by
  decide

/-! ### Events -/

/-- What is sent to a subscriber. -/
inductive Chunk
  | event (sub : Submission)
  | keepAlive

/-- The line of a field. -/
def fieldLine (name : String) (value : List Char) : List Char :=
  name.toList ++ ':' :: ' ' :: value

/-- `Event`, and the comment of `KeepAlive`. -/
def Chunk.text : Chunk → List Char
  | .event sub => fieldLine "event" sub.event.toList ++
      '\n' :: (fieldLine "data" sub.json.toList ++ ['\n', '\n'])
  | .keepAlive => [':', '\n', '\n']

/-- What a client has of the event that it is reading. -/
structure Hearing where
  name : List Char := []
  data : Option (List Char) := none

/-- The name and the value of a line; one blank after the colon is skipped. -/
def splitLine (line : List Char) : List Char × List Char :=
  let value := (line.dropWhile (· ≠ ':')).tail
  (line.takeWhile (· ≠ ':'), if value.head? = some ' ' then value.tail else value)

/-- A further line of data. -/
def addLine (value : List Char) : Option (List Char) → List Char
  | some earlier => earlier ++ '\n' :: value
  | none => value

/-- One line: it adds to the event, or is empty and ends it; comments are skipped. -/
def Hearing.line (self : Hearing) (line : List Char) :
    Hearing × Option (List Char × List Char) :=
  if line = [] then ({}, self.data.map fun data => (self.name, data))
  else
    let field := splitLine line
    if field.1 = "event".toList then ({ self with name := field.2 }, none)
    else if field.1 = "data".toList then
      ({ self with data := some (addLine field.2 self.data) }, none)
    else (self, none)

/-- The events of some lines. -/
def Hearing.lines (self : Hearing) : List (List Char) → List (List Char × List Char)
  | [] => []
  | line :: rest => (self.line line).2.toList ++ (self.line line).1.lines rest

/-- What a client hears: the names of the events, and the submissions. -/
def listen (text : List Char) : List (String × Option Submission) :=
  (Hearing.lines {} (text.splitOn '\n')).map fun event =>
    (String.ofList event.1, readSubmission (String.ofList event.2))

theorem splitOn_line {line rest : List Char} (free : '\n' ∉ line) :
    (line ++ '\n' :: rest).splitOn '\n' = line :: rest.splitOn '\n' := by
  rw [List.splitOn_append_cons_self, List.splitOn_eq_singleton free, List.singleton_append]

theorem json_free (sub : Submission) {c : Char} (control : c.toNat < 0x20) :
    c ∉ sub.json.toList := by
  intro inside
  rw [Submission.json, String.toList_ofList] at inside
  exact absurd (body_plain _ c inside) (Nat.not_le_of_lt control)

theorem event_free (sub : Submission) {c : Char} (control : c.toNat < 0x20) :
    c ∉ sub.event.toList := by
  have verdict : ∀ d ∈ "verdict".toList, 0x20 ≤ d.toNat := by simp
  have progress : ∀ d ∈ "progress".toList, 0x20 ≤ d.toNat := by simp
  intro inside
  unfold Submission.event at inside
  split at inside
  · exact absurd (verdict c inside) (Nat.not_le_of_lt control)
  · exact absurd (progress c inside) (Nat.not_le_of_lt control)

theorem splitLine_printed (name value : List Char) (plain : ':' ∉ name) :
    splitLine (name ++ ':' :: ' ' :: value) = (name, value) := by
  have different : ∀ c ∈ name, decide (c ≠ ':') = true := fun c inside =>
    decide_eq_true fun same => plain (same ▸ inside)
  unfold splitLine
  rw [List.takeWhile_append_of_pos different, List.dropWhile_append_of_pos different]
  simp

theorem fieldLine_free {name : String} {value : List Char} (plain : '\n' ∉ name.toList)
    (free : '\n' ∉ value) : '\n' ∉ fieldLine name value := by
  intro inside
  rcases List.mem_append.mp inside with early | late
  · exact plain early
  · simp only [List.mem_cons] at late
    rcases late with colon | blank | late
    · exact absurd colon (by decide)
    · exact absurd blank (by decide)
    · exact free late

theorem fieldLine_ne_nil (name : String) (value : List Char) : fieldLine name value ≠ [] := by
  simp [fieldLine]

/-- The name of an event is heard. -/
theorem hears_name (self : Hearing) (value : List Char) :
    self.line (fieldLine "event" value) = ({ self with name := value }, none) := by
  have split : splitLine (fieldLine "event" value) = ("event".toList, value) :=
    splitLine_printed _ _ (by decide)
  rw [Hearing.line, if_neg (fieldLine_ne_nil _ _), split, if_pos rfl]

/-- Its data is heard. -/
theorem hears_data (self : Hearing) (value : List Char) :
    self.line (fieldLine "data" value) =
      ({ self with data := some (addLine value self.data) }, none) := by
  have split : splitLine (fieldLine "data" value) = ("data".toList, value) :=
    splitLine_printed _ _ (by decide)
  rw [Hearing.line, if_neg (fieldLine_ne_nil _ _), split]
  have other : "data".toList ≠ "event".toList := by decide
  exact (if_neg other).trans (if_pos rfl)

/-- The event of a chunk. -/
def Chunk.events : Chunk → List Submission
  | .event sub => [sub]
  | .keepAlive => []

/-- **A chunk is heard as it was sent**, and what follows it is heard on its own. -/
theorem lines_chunk (chunk : Chunk) (rest : List Char) :
    Hearing.lines {} ((chunk.text ++ rest).splitOn '\n') =
      chunk.events.map (fun sub => (sub.event.toList, sub.json.toList)) ++
        Hearing.lines {} (rest.splitOn '\n') := by
  cases chunk with
  | keepAlive =>
    have comment : '\n' ∉ [':'] := by decide
    show Hearing.lines {} (([':'] ++ '\n' :: ([] ++ '\n' :: rest)).splitOn '\n') = _
    rw [splitOn_line comment, splitOn_line List.not_mem_nil]
    rfl
  | event sub =>
    have free := fieldLine_free (show '\n' ∉ "event".toList by decide)
      (event_free sub (show '\n'.toNat < 0x20 by decide))
    have free' := fieldLine_free (show '\n' ∉ "data".toList by decide)
      (json_free sub (show '\n'.toNat < 0x20 by decide))
    have text : (Chunk.event sub).text ++ rest =
        fieldLine "event" sub.event.toList ++ '\n' ::
          (fieldLine "data" sub.json.toList ++ '\n' :: ([] ++ '\n' :: rest)) := by
      simp [Chunk.text]
    rw [text, splitOn_line free, splitOn_line free', splitOn_line List.not_mem_nil, Hearing.lines,
      hears_name, Hearing.lines, hears_data]
    rfl

/-- **A client hears the events that were sent**, each with its submission, wherever comments stand
between them and whatever the texts in the submissions are; and there are no line breaks but those
of the format. -/
theorem events_read_back (chunks : List Chunk) :
    listen (chunks.flatMap Chunk.text) =
        (chunks.flatMap Chunk.events).map (fun sub => (sub.event, some sub)) ∧
      '\r' ∉ chunks.flatMap Chunk.text := by
  constructor
  · have lines : Hearing.lines {} ((chunks.flatMap Chunk.text).splitOn '\n') =
        (chunks.flatMap Chunk.events).map fun sub => (sub.event.toList, sub.json.toList) := by
      induction chunks with
      | nil => rfl
      | cons chunk rest ih =>
        rw [List.flatMap_cons, lines_chunk, ih, List.flatMap_cons, List.map_append]
    rw [listen, lines, List.map_map]
    refine List.map_congr_left fun sub _ => ?_
    simp only [Function.comp_apply, String.ofList_toList, readSubmission_json]
  · intro inside
    obtain ⟨chunk, -, inside⟩ := List.mem_flatMap.mp inside
    cases chunk with
    | keepAlive => exact absurd inside (by decide)
    | event sub =>
      have event := event_free sub (show '\r'.toNat < 0x20 by decide)
      have json := json_free sub (show '\r'.toNat < 0x20 by decide)
      simp [Chunk.text, fieldLine, event, json] at inside

end Codexec.Server
