/-
**The isolate backend.**

`exec` is a function of what the spawned `isolate` process did: what it printed, read by read, how
it exited, and the meta file it left. `readCapped` keeps the first bytes of a stream and counts the
rest as truncated; `interpret` turns exit code and meta file into a status.
-/

import Codexec.Judge.Sandbox
import Mathlib.Data.List.DropRight
import Mathlib.Algebra.Order.Ring.Int

namespace Codexec

/-! ### Text -/

/-- The Unicode property `White_Space`. -/
def isWhiteSpace (c : Char) : Bool :=
  let n := c.toNat
  (0x09 ≤ n && n ≤ 0x0D) || n == 0x20 || n == 0x85 || n == 0xA0 || n == 0x1680 ||
    (0x2000 ≤ n && n ≤ 0x200A) || n == 0x2028 || n == 0x2029 || n == 0x202F || n == 0x205F ||
    n == 0x3000

/-- `str::trim` -/
def trim (text : List Char) : List Char :=
  (text.dropWhile isWhiteSpace).rdropWhile isWhiteSpace

/-- A line without the carriage return of its line ending. -/
def chomp (line : List Char) : List Char :=
  if line.getLast? = some '\r' then line.dropLast else line

/-- `str::lines`: every line ends with a line feed, except possibly the last one. -/
def lines (text : List Char) : List (List Char) :=
  let pieces := text.splitOn '\n'
  pieces.dropLast.map chomp ++ (pieces.getLast?.filter fun last => !last.isEmpty).toList

/-- The parts before and after the first colon. -/
def splitColon (line : List Char) : Option (List Char × List Char) :=
  if ':' ∈ line then
    some (line.takeWhile (· != ':'), (line.dropWhile (· != ':')).tail)
  else none

def parseDigits (digits : List Char) : Option Nat :=
  if digits ≠ [] ∧ digits.all Char.isDigit then some (Nat.ofDigitChars 10 digits 0) else none

/-- `str::parse::<u64>` -/
def parseU64 (text : String) : Option UInt64 :=
  let digits := match text.toList with
    | '+' :: rest => rest
    | all => all
  (parseDigits digits).bind fun n => if n < 2 ^ 64 then some (UInt64.ofNat n) else none

/-- `str::parse::<i32>` -/
def parseI32 (text : String) : Option Int :=
  let value := match text.toList with
    | '-' :: rest => (parseDigits rest).map fun n => -(n : Int)
    | '+' :: rest => (parseDigits rest).map fun n => (n : Int)
    | all => (parseDigits all).map fun n => (n : Int)
  value.filter fun n => -2 ^ 31 ≤ n ∧ n < 2 ^ 31

/-! ### The meta file -/

/-- Keys and values in the order of the file; a later line overrides an earlier one. -/
abbrev Meta : Type := List (String × String)

def parseMeta (text : String) : Meta :=
  (lines text.toList).filterMap fun line =>
    (splitColon line).map fun pair => (String.ofList (trim pair.1), String.ofList (trim pair.2))

namespace Meta

def get (entries : Meta) (key : String) : Option String :=
  (entries.reverse.find? fun entry => entry.1 = key).map Prod.snd

/-- A time in milliseconds. -/
def ms [Host] (entries : Meta) (key : String) : UInt64 :=
  ((entries.get key).bind fun value => Host.parseF64 (utf8 value)).elim 0 Host.secondsToMs

/-- A size in kilobytes. -/
def kb (entries : Meta) (key : String) : Option UInt64 := (entries.get key).bind parseU64

/-- The peak of one process, else the peak of the control group. -/
def memoryKb (entries : Meta) : UInt64 := ((entries.kb "max-rss").or (entries.kb "cg-mem")).getD 0

end Meta

/-- `{:?}` of an option, around the text of its value. -/
def debugOption (value : Option String) : String :=
  value.elim "None" fun text => "Some(" ++ text ++ ")"

/-- `saturating_mul` on `u64`. -/
def saturatingMul (first second : UInt64) : Nat := min (first.toNat * second.toNat) (2 ^ 64 - 1)

/-- Turns the exit code and the meta file into a status, CPU ms, wall ms and memory kB. -/
def interpret [Host] (entries : Meta) (exitCode : Option Int) (limits : ExecLimits)
    (useCgroups stdoutTruncated : Bool) :
    Except String (ExecStatus × UInt64 × UInt64 × UInt64) :=
  let statusKey := entries.get "status"
  if ¬((exitCode = some 0 ∨ exitCode = some 1) ∧ statusKey ≠ some "XX") then
    .error ("isolate internal error (exit " ++ debugOption (exitCode.map toString) ++ ", status " ++
      debugOption (statusKey.map Host.debugStr) ++ ", message " ++
      debugOption ((entries.get "message").map Host.debugStr) ++ ")")
  else if entries.isEmpty then .error "isolate produced no meta file"
  else
    let cpuMs := entries.ms "time"
    let wallMs := entries.ms "time-wall"
    let memoryKb := entries.memoryKb
    let failed := statusKey.isSome
    let oom := (entries.get "cg-oom-killed").isSome || decide (memoryKb > limits.memoryKb) ||
      -- rlimit mode: allocation failures surface as crashes just under the limit.
      (!useCgroups && failed &&
        decide (saturatingMul memoryKb 10 ≥ saturatingMul limits.memoryKb 9))
    let status : Except String ExecStatus :=
      if statusKey = some "TO" then
        let wall := (entries.get "message").any fun message =>
          message.toList.tails.any fun tail => "wall".toList.isPrefixOf tail
        .ok (if wall then .wallTimeLimit else .timeLimit)
      else if oom then .ok .memoryLimit
      else
        match statusKey with
        | some "SG" => .ok (.signaled (((entries.get "exitsig").bind parseI32).getD 0))
        | some "RE" => .ok (.nonZeroExit (((entries.get "exitcode").bind parseI32).getD 1))
        | some other => .error ("unknown isolate status " ++ Host.debugStr other)
        | none => .ok (if stdoutTruncated then .outputLimit else .ok)
    status.map fun status => (status, cpuMs, wallMs, memoryKb)

/-! ### Reading a stream -/

/-- The loop of `read_capped`: what is kept, whether bytes were dropped, and the reads to come. An
empty read is the end of the stream. -/
def readCappedLoop (cap : Nat) : Bytes → Bool → List (Except String Bytes) →
    Except SandboxError (Bytes × Bool)
  | kept, truncated, [] => .ok (kept, truncated)
  | _, _, .error e :: _ => .error (.io e)
  | kept, truncated, .ok chunk :: rest =>
    if chunk.isEmpty then .ok (kept, truncated)
    else
      let room := cap - kept.length
      readCappedLoop cap (kept ++ chunk.take (min chunk.length room))
        (truncated || decide (chunk.length > room)) rest

/-- Reads to the end, keeps the first `cap` bytes and drops the rest. -/
def readCapped (cap : Nat) (reads : List (Except String Bytes)) :
    Except SandboxError (Bytes × Bool) :=
  readCappedLoop cap [] false reads

/-- One read keeps the bytes there is room for. -/
theorem keep_eq {cap : Nat} {kept : Bytes} (fits : kept.length ≤ cap) (chunk : Bytes) :
    kept ++ chunk.take (min chunk.length (cap - kept.length)) = (kept ++ chunk).take cap := by
  rw [List.take_append, List.take_of_length_le fits]
  congr 1
  rcases Nat.le_total chunk.length (cap - kept.length) with small | large
  · rw [Nat.min_eq_left small, List.take_length, List.take_of_length_le small]
  · rw [Nat.min_eq_right large]

/-- What the first reads dropped stays dropped. -/
theorem take_append_take (cap : Nat) (first rest : Bytes) :
    (first.take cap ++ rest).take cap = (first ++ rest).take cap := by
  rcases Nat.le_total first.length cap with small | large
  · rw [List.take_of_length_le small]
  · have full : (first.take cap).length = cap := by
      rw [List.length_take, Nat.min_eq_left large]
    rw [List.take_append_of_le_length (Nat.le_of_eq full.symm), List.take_take, Nat.min_self,
      List.take_append_of_le_length large]

/-- Bytes are dropped by the first reads or by the later ones. -/
theorem cut_append {cap : Nat} {kept : Bytes} (fits : kept.length ≤ cap) (chunk : Bytes) (n : Nat) :
    (decide (chunk.length > cap - kept.length) ||
        decide (cap < ((kept ++ chunk).take cap).length + n)) =
      decide (cap < kept.length + (chunk.length + n)) := by
  rw [← Bool.decide_or, decide_eq_decide, List.length_take, List.length_append]
  omega

/-- The loop keeps a prefix of the stream, and notes whether that is all of it. -/
theorem readCappedLoop_chunks {cap : Nat} {kept : Bytes} (fits : kept.length ≤ cap)
    (truncated : Bool) {chunks : List Bytes} (nonempty : ∀ chunk ∈ chunks, chunk ≠ []) :
    readCappedLoop cap kept truncated (chunks.map .ok) =
      .ok ((kept ++ chunks.flatten).take cap,
        truncated || decide (cap < kept.length + chunks.flatten.length)) := by
  induction chunks generalizing kept truncated with
  | nil =>
    have whole : ¬ cap < kept.length := by omega
    simp [readCappedLoop, List.take_of_length_le fits, whole]
  | cons chunk rest ih =>
    have here : chunk.isEmpty = false := by
      simpa using nonempty chunk List.mem_cons_self
    have later : ∀ chunk ∈ rest, chunk ≠ [] := fun other inside =>
      nonempty other (List.mem_cons_of_mem _ inside)
    rw [List.map_cons, readCappedLoop, here, if_neg Bool.false_ne_true, List.flatten_cons,
      List.length_append]
    simp only []
    rw [keep_eq fits, ih (List.length_take_le _ _) _ later, take_append_take, Bool.or_assoc,
      cut_append fits, List.append_assoc]

/-- **A stream is cut at `cap` and reported as truncated exactly when it is longer**, however it was
divided into reads. -/
theorem readCapped_chunks (cap : Nat) {chunks : List Bytes}
    (nonempty : ∀ chunk ∈ chunks, chunk ≠ []) :
    readCapped cap (chunks.map .ok) =
      .ok (chunks.flatten.take cap, decide (cap < chunks.flatten.length)) := by
  rw [readCapped, readCappedLoop_chunks (Nat.zero_le cap) false nonempty, List.nil_append,
    Bool.false_or, List.length_nil, Nat.zero_add]

/-! ### One execution -/

/-- What the spawned process did, as far as `exec` can tell. -/
structure Process where
  /-- The i/o error of the spawn. -/
  spawnError : Option String
  /-- Whether everything was over before the guard. -/
  inTime : Bool
  stdout : List (Except String Bytes)
  stderr : List (Except String Bytes)
  /-- The exit code; `none` after a signal. -/
  exit : Except String (Option Int)
  /-- The contents of the meta file, if it could be read. -/
  metaText : Option String

/-- The time after which `exec` gives up, in milliseconds. -/
def ExecLimits.guard (limits : ExecLimits) : Nat := limits.wallTime + limits.extraTime + 15000

/-- `{:?}` of a duration of at least a second. -/
def debugDuration (ms : Nat) : String :=
  let fraction := ((toString (1000 + ms % 1000)).toList.tail).rdropWhile (· == '0')
  toString (ms / 1000) ++
    (if fraction.isEmpty then "" else "." ++ String.ofList fraction) ++ "s"

/-- `IsolateBox::exec` -/
def isolateExec [Host] (useCgroups : Bool) (id : Nat) (spec : ExecSpec) (process : Process) :
    Except SandboxError ExecOutcome := do
  if spec.argv.isEmpty then
    throw (.backend "empty argv")
  if let some e := process.spawnError then
    throw (.io e)
  if !process.inTime then
    throw (.backend ("isolate did not finish within " ++ debugDuration spec.limits.guard ++
      " for box " ++ toString id))
  let (stdout, stdoutTruncated) ← readCapped spec.limits.stdoutBytes process.stdout
  let (stderr, _) ← readCapped spec.limits.stderrBytes process.stderr
  let exitCode ← process.exit.mapError SandboxError.io
  let entries := parseMeta (process.metaText.getD "")
  match interpret entries exitCode spec.limits useCgroups stdoutTruncated with
  | .error msg =>
    throw (.backend (msg ++ "; isolate stderr: " ++
      String.ofList (trim (fromUtf8Lossy stderr).toList)))
  | .ok (status, cpuTimeMs, wallTimeMs, memoryKb) =>
    pure ⟨status, stdout, stderr, cpuTimeMs, wallTimeMs, memoryKb⟩

/-- What a process does whose meta file reports a success: it exits with code 0, and the file has
entries, but no status, no mark of the out-of-memory killer and no memory above the limit. -/
structure Succeeds (limits : ExecLimits) (process : Process) (output : Bytes) : Prop where
  spawned : process.spawnError = none
  inTime : process.inTime = true
  stdout : ∃ chunks : List Bytes, (∀ chunk ∈ chunks, chunk ≠ []) ∧ process.stdout = chunks.map .ok ∧
    chunks.flatten = output
  stderr : ∃ chunks : List Bytes, (∀ chunk ∈ chunks, chunk ≠ []) ∧
    process.stderr = chunks.map .ok
  exit : process.exit = .ok (some 0)
  reported : parseMeta (process.metaText.getD "") ≠ []
  noStatus : (parseMeta (process.metaText.getD "")).get "status" = none
  notKilled : (parseMeta (process.metaText.getD "")).get "cg-oom-killed" = none
  memory : (parseMeta (process.metaText.getD "")).memoryKb ≤ limits.memoryKb

/-- Without a status and out of memory neither way, only the truncation decides. -/
theorem interpret_success [Host] {entries : Meta} {limits : ExecLimits} {useCgroups truncated : Bool}
    (reported : entries ≠ []) (noStatus : entries.get "status" = none)
    (notKilled : entries.get "cg-oom-killed" = none) (memory : entries.memoryKb ≤ limits.memoryKb) :
    interpret entries (some 0) limits useCgroups truncated =
      .ok (if truncated then .outputLimit else .ok, entries.ms "time", entries.ms "time-wall",
        entries.memoryKb) := by
  have small : ¬ entries.memoryKb > limits.memoryKb := by
    rw [gt_iff_lt, UInt64.not_lt]
    exact memory
  have entered : entries.isEmpty = false := by simpa using reported
  simp [interpret, noStatus, notKilled, entered, small, Except.map]

/-- **A successful command whose output is cut is reported as an output-limit violation.** -/
theorem isolateExec_succeeds [Host] {useCgroups : Bool} {id : Nat} {spec : ExecSpec}
    {process : Process} {output : Bytes} (argv : spec.argv ≠ [])
    (succeeds : Succeeds spec.limits process output) :
    ∃ out, isolateExec useCgroups id spec process = .ok out ∧
      out.stdout = output.take spec.limits.stdoutBytes ∧
      out.status = if spec.limits.stdoutBytes < output.length then .outputLimit else .ok := by
  obtain ⟨chunks, nonempty, printed, rfl⟩ := succeeds.stdout
  obtain ⟨errors, nonempty', printed'⟩ := succeeds.stderr
  have command : spec.argv.isEmpty = false := by simpa using argv
  have ended := succeeds.exit
  have status : interpret (parseMeta (process.metaText.getD "")) (some 0) spec.limits useCgroups
      (decide (spec.limits.stdoutBytes < chunks.flatten.length)) = _ :=
    interpret_success succeeds.reported succeeds.noStatus succeeds.notKilled succeeds.memory
  unfold isolateExec
  rw [command, succeeds.spawned, succeeds.inTime, printed, printed', readCapped_chunks _ nonempty,
    readCapped_chunks _ nonempty', ended]
  simp only [bind, Except.bind, pure, Except.pure, Except.mapError, status]
  refine ⟨_, rfl, rfl, ?_⟩
  simp only [decide_eq_true_eq]

/-! ### The box -/

/-- `box_dir` is left out: nothing but the file system sees it. -/
structure IsolateBox where
  id : UInt32
  executed : Bool
  deriving DecidableEq

namespace IsolateBox

variable (self : IsolateBox)

/-- `IsolateBox::init`, once isolate has cleaned the box up and set it up. -/
def init : IsolateBox := { self with executed := false }

/-- `IsolateBox::write_file`; `create` says how creating and filling the file went. -/
def writeFile (name : String) (create : Except String Unit) : Except SandboxError Unit := do
  validateFileName name
  if self.executed then
    throw (.backend "refusing to write into a box after code has run in it")
  create.mapError .io

/-- What `IsolateBox::exec` does to the box. -/
def exec (spec : ExecSpec) : IsolateBox :=
  if spec.argv.isEmpty then self else { self with executed := true }

theorem exec_id (spec : ExecSpec) : (self.exec spec).id = self.id := by
  unfold exec
  split <;> rfl

end IsolateBox

end Codexec
