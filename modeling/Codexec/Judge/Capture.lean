/-
**What becomes of the output of a program.**

`read_capped` drains a pipe: it goes on reading past the cap, so that the program can end, and notes
that it dropped bytes. That note turns a success into an output-limit violation, and only an outcome
with status `Ok` is compared: an output of which bytes were dropped never is.
-/

import Codexec.Judge.Interpret
import Codexec.Judge.Execution

namespace Codexec

open Codexec.Library

/-! ### The pipe -/

/-- A stream, divided into the reads that deliver it through a buffer of 64 KiB. -/
structure Division (stream : Bytes) (chunks : List Bytes) : Prop where
  nonempty : ∀ chunk ∈ chunks, chunk ≠ []
  fits : ∀ chunk ∈ chunks, chunk.length ≤ 64 * 1024
  whole : chunks.flatten = stream

/-- What a pipe delivers up to its end, which is a read of no bytes. -/
def delivered : List (Except String Bytes) → Bytes
  | .ok chunk :: rest => if chunk.isEmpty then [] else chunk ++ delivered rest
  | _ => []

/-- The loop of `read_capped`, with the reads it leaves undone. -/
def readCappedRest (cap : Nat) : Bytes → Bool → List (Except String Bytes) →
    Except SandboxError ((Bytes × Bool) × List (Except String Bytes))
  | kept, truncated, [] => .ok ((kept, truncated), [])
  | _, _, .error e :: _ => .error (.io e)
  | kept, truncated, .ok chunk :: rest =>
    if chunk.isEmpty then .ok ((kept, truncated), rest)
    else
      let room := cap - kept.length
      readCappedRest cap (kept ++ chunk.take (min chunk.length room))
        (truncated || decide (chunk.length > room)) rest

/-- Apart from the reads left over it is that loop. -/
theorem readCappedRest_fst (cap : Nat) (kept : Bytes) (truncated : Bool)
    (reads : List (Except String Bytes)) :
    (readCappedRest cap kept truncated reads).map Prod.fst =
      readCappedLoop cap kept truncated reads := by
  induction reads generalizing kept truncated with
  | nil => rfl
  | cons read rest ih =>
    cases read with
    | error e => rfl
    | ok chunk =>
      unfold readCappedRest readCappedLoop
      split
      · rfl
      · exact ih _ _

/-- **However the stream is divided, the loop drains it**: it stops behind the read that ends the
stream, with what `read_capped` returns. -/
theorem readCappedRest_chunks {cap : Nat} {chunks : List Bytes}
    (nonempty : ∀ chunk ∈ chunks, chunk ≠ []) (later : List (Except String Bytes)) (kept : Bytes)
    (truncated : Bool) :
    readCappedRest cap kept truncated (chunks.map .ok ++ .ok [] :: later) =
      (readCappedLoop cap kept truncated (chunks.map .ok)).map fun result => (result, later) := by
  induction chunks generalizing kept truncated with
  | nil => rfl
  | cons chunk rest ih =>
    have here : chunk.isEmpty = false := by
      simpa using nonempty chunk List.mem_cons_self
    rw [List.map_cons, List.cons_append, readCappedRest, readCappedLoop, here,
      if_neg Bool.false_ne_true, if_neg Bool.false_ne_true]
    exact ih (fun other inside => nonempty other (List.mem_cons_of_mem _ inside)) _ _

/-- What the loop returns is a prefix of what the pipe delivered, and whether that is all of it. -/
theorem readCappedLoop_delivered {cap : Nat} {kept : Bytes} (fits : kept.length ≤ cap)
    {truncated : Bool} {reads : List (Except String Bytes)} {result : Bytes × Bool}
    (returned : readCappedLoop cap kept truncated reads = .ok result) :
    result = ((kept ++ delivered reads).take cap,
      truncated || decide (cap < kept.length + (delivered reads).length)) := by
  have ended : (kept, truncated) = ((kept ++ []).take cap,
      truncated || decide (cap < kept.length + ([] : Bytes).length)) := by
    have whole : ¬ cap < kept.length := by omega
    simp [List.take_of_length_le fits, whole]
  induction reads generalizing kept truncated with
  | nil =>
    cases returned
    exact ended
  | cons read rest ih =>
    cases read with
    | error e => cases returned
    | ok chunk =>
      unfold readCappedLoop at returned
      unfold delivered
      by_cases last : chunk.isEmpty = true
      · rw [if_pos last] at returned ⊢
        cases returned
        exact ended
      · rw [if_neg last] at returned ⊢
        simp only [keep_eq fits] at returned
        have within := List.length_take_le cap (kept ++ chunk)
        rw [ih within returned (by simp), take_append_take, Bool.or_assoc, cut_append fits,
          List.append_assoc, List.length_append]

/-- `read_capped` returns the first `cap` bytes the pipe delivered. -/
theorem readCapped_delivered {cap : Nat} {reads : List (Except String Bytes)}
    {result : Bytes × Bool} (returned : readCapped cap reads = .ok result) :
    result = ((delivered reads).take cap, decide (cap < (delivered reads).length)) := by
  rw [readCapped] at returned
  rw [readCappedLoop_delivered (Nat.zero_le cap) returned, List.nil_append, Bool.false_or,
    List.length_nil, Nat.zero_add]

/-- **`read_capped` drains a stream**, and returns the same however it was divided. -/
theorem readCapped_division {stream : Bytes} {chunks : List Bytes}
    (division : Division stream chunks) (cap : Nat) (later : List (Except String Bytes)) :
    readCappedRest cap [] false (chunks.map .ok ++ .ok [] :: later) =
      .ok ((stream.take (min cap stream.length), decide (stream.length > cap)), later) := by
  rw [readCappedRest_chunks division.nonempty, ← readCapped,
    readCapped_chunks cap division.nonempty, division.whole, ← List.take_eq_take_min]
  rfl

/-! ### One execution -/

/-- Bytes of the stdout of a process are not in the outcome. -/
def Dropped (process : Process) (out : ExecOutcome) : Prop := out.stdout ≠ delivered process.stdout

/-- What `exec` returned, it has read from the pipe and from the meta file. -/
theorem isolateExec_returned [Host] {useCgroups : Bool} {id : Nat} {spec : ExecSpec}
    {process : Process} {out : ExecOutcome}
    (executed : isolateExec useCgroups id spec process = .ok out) :
    ∃ truncated exitCode usage,
      readCapped spec.limits.stdoutBytes process.stdout = .ok (out.stdout, truncated) ∧
      interpret (parseMeta (process.metaText.getD "")) exitCode spec.limits useCgroups truncated =
        .ok (out.status, usage) := by
  unfold isolateExec at executed
  cases argv : spec.argv.isEmpty with
  | true =>
    rw [argv] at executed
    cases executed
  | false =>
  cases spawn : process.spawnError with
  | some e =>
    rw [argv, spawn] at executed
    cases executed
  | none =>
  cases timely : process.inTime with
  | false =>
    rw [argv, spawn, timely] at executed
    cases executed
  | true =>
  rw [argv, spawn, timely] at executed
  cases stdout : readCapped spec.limits.stdoutBytes process.stdout with
  | error e =>
    rw [stdout] at executed
    cases executed
  | ok kept =>
  cases stderr : readCapped spec.limits.stderrBytes process.stderr with
  | error e =>
    rw [stdout, stderr] at executed
    cases executed
  | ok errors =>
  cases exited : process.exit with
  | error e =>
    rw [stdout, stderr, exited] at executed
    cases executed
  | ok exitCode =>
  cases status : interpret (parseMeta (process.metaText.getD "")) exitCode spec.limits useCgroups
      kept.2 with
  | error msg =>
    rw [stdout, stderr, exited] at executed
    simp only [bind, Except.bind, Except.mapError, status] at executed
    cases executed
  | ok usage =>
    rw [stdout, stderr, exited] at executed
    simp only [bind, Except.bind, Except.mapError, status] at executed
    cases executed
    exact ⟨_, _, _, rfl, status⟩

/-- **With status `Ok` an outcome has the whole stdout of the program.** -/
theorem isolateExec_whole [Host] {useCgroups : Bool} {id : Nat} {spec : ExecSpec}
    {process : Process} {out : ExecOutcome}
    (executed : isolateExec useCgroups id spec process = .ok out) (ok : out.status = .ok) :
    out.stdout = delivered process.stdout := by
  obtain ⟨truncated, exitCode, usage, read, status⟩ := isolateExec_returned executed
  rw [ok] at status
  obtain ⟨-, -, whole⟩ := interpret_ok_iff.mp ⟨usage, status⟩
  obtain ⟨kept, fits⟩ := Prod.mk.inj (readCapped_delivered read)
  rw [whole, eq_comm, decide_eq_false_iff_not, Nat.not_lt] at fits
  rw [kept, List.take_of_length_le fits]

/-! ### The comparison -/

/-- `classify`, with any function in the place of the comparer. -/
def classifyWith (comparison : Bytes → Bytes → Except String Unit) (out : ExecOutcome)
    (test : TestCase) : Verdict × Option String :=
  match out.status with
  | .ok =>
    match test.expected with
    | none => (.accepted, none)
    | some expected =>
      match comparison expected out.stdout with
      | .ok () => (.accepted, none)
      | .error why => (.wrongAnswer, some why)
  | .nonZeroExit code => (.runtimeError, some s!"exit code {code}")
  | .signaled signal => (.runtimeError, some s!"killed by signal {signal}")
  | .timeLimit => (.timeLimitExceeded, none)
  | .wallTimeLimit => (.timeLimitExceeded, some "wall-clock limit (sleeping or blocked)")
  | .memoryLimit => (.memoryLimitExceeded, none)
  | .outputLimit => (.outputLimitExceeded, none)

theorem classify_eq [Host] (out : ExecOutcome) (test : TestCase) (comparer : Comparer) :
    classify out test comparer = classifyWith (compare comparer) out test := rfl

/-- The verdict takes a comparison: it is not the same whatever the comparer says. -/
def Compared (out : ExecOutcome) (test : TestCase) : Prop :=
  ∃ one two, classifyWith one out test ≠ classifyWith two out test

/-- Only an outcome with status `Ok` is compared, accepted or rejected. -/
theorem unjudged_of_status [Host] {out : ExecOutcome} (test : TestCase) (comparer : Comparer)
    (failed : out.status ≠ .ok) :
    ¬ Compared out test ∧ (classify out test comparer).1 ≠ .accepted ∧
      (classify out test comparer).1 ≠ .wrongAnswer := by
  rw [classify_eq]
  unfold Compared classifyWith
  cases status : out.status with
  | ok => exact absurd status failed
  | _ => simp

/-- Every command of these executions was a run of isolate. -/
def UnderIsolate [Host] (useCgroups : Bool) (id : Nat) (ran : List Execution)
    (processes : List Process) : Prop :=
  List.Forall₂ (fun execution process =>
    execution.2.2 = isolateExec useCgroups id execution.1 process) ran processes

/-- A test of which bytes were dropped is neither compared nor judged by its output. -/
def Unjudged [Host] (comparer : Comparer) (pair : TestCase × ExecOutcome) (process : Process) :
    Prop :=
  Dropped process pair.2 → ¬ Compared pair.2 pair.1 ∧
    (classify pair.2 pair.1 comparer).1 ≠ .accepted ∧
    (classify pair.2 pair.1 comparer).1 ≠ .wrongAnswer

section Run

variable [Host] {useCgroups : Bool} {id : Nat}

theorem unjudged_of_executed {spec : ExecSpec} {process : Process} {out : ExecOutcome}
    (executed : isolateExec useCgroups id spec process = .ok out) (test : TestCase)
    (comparer : Comparer) : Unjudged comparer (test, out) process := by
  intro dropped
  exact unjudged_of_status test comparer fun ok => dropped (isolateExec_whole executed ok)

/-- The tests of a run under isolate. -/
theorem unjudged_of_isolated (comparer : Comparer) {pairs : List (TestCase × ExecOutcome)}
    {spec : ExecSpec} {processes : List Process}
    (isolated : UnderIsolate useCgroups id (pairs.map (Judge.testExecution spec)) processes) :
    List.Forall₂ (Unjudged comparer) pairs processes := by
  rw [UnderIsolate, List.forall₂_map_left_iff] at isolated
  exact isolated.imp fun pair process answered => unjudged_of_executed answered.symm _ _

end Run

/-- **A truncated output is never compared.** However a stream is divided into reads, `read_capped`
drains it, returns its first `cap` bytes and reports whether it was longer; an outcome of `exec`
with status `Ok` has the whole output; and in a run of the judge whose commands run under isolate,
ended or not, no test of which bytes were dropped is compared, accepted or rejected as a wrong
answer. -/
theorem truncated_output_never_compared [Host] :
    (∀ (stream : Bytes) (chunks : List Bytes) (cap : Nat) (later : List (Except String Bytes)),
      Division stream chunks →
        readCappedRest cap [] false (chunks.map .ok ++ .ok [] :: later) =
          .ok ((stream.take (min cap stream.length), decide (stream.length > cap)), later) ∧
        readCapped cap (chunks.map .ok ++ .ok [] :: later) =
          .ok (stream.take (min cap stream.length), decide (stream.length > cap))) ∧
    (∀ (useCgroups : Bool) (id : Nat) (spec : ExecSpec) (process : Process) (out : ExecOutcome),
      isolateExec useCgroups id spec process = .ok out → out.status = .ok →
        out.stdout = delivered process.stdout) ∧
    ∀ (self : Judge) (req : JudgeRequest) (progress : Bool)
      (transcript : List (Program.Exchange Call.Answer))
      (rest : JudgeM (Except JudgeError JudgeResult)) (useCgroups : Bool) (id : Nat)
      (processes : List Process),
      Program.Follows (self.judge req progress) transcript rest →
      UnderIsolate useCgroups id (executions transcript) processes →
      List.Forall₂ (fun execution process => ∀ out, execution.2.2 = .ok out →
        ∀ test ∈ req.tests, Unjudged req.comparer (test, out) process)
        (executions transcript) processes ∧
      ∀ result, rest = .pure (.ok result) → ∃ compile outs spec,
        executions transcript = compile ++ (req.tests.zip outs).map (Judge.testExecution spec) ∧
        result.tests.map TestResult.verdict =
          (req.tests.zip outs).map (fun pair => (classify pair.2 pair.1 req.comparer).1) ∧
        List.Forall₂ (Unjudged req.comparer) (req.tests.zip outs)
          (processes.drop compile.length) := by
  refine ⟨?_, ?_, ?_⟩
  · intro stream chunks cap later division
    have drained := readCapped_division division cap later
    refine ⟨drained, ?_⟩
    rw [readCapped, ← readCappedRest_fst, drained]
    rfl
  · intro useCgroups id spec process out executed ok
    exact isolateExec_whole executed ok
  · intro self req progress transcript rest useCgroups id processes follows isolated
    constructor
    · refine isolated.imp fun execution process answered out given test _ => ?_
      exact unjudged_of_executed (answered.symm.trans given) test req.comparer
    · rintro result rfl
      obtain ⟨lang, -, executed⟩ := Judge.judge_executes follows
      generalize executions transcript = ran at isolated executed ⊢
      cases executed with
      | compileFailed found compile failed =>
        refine ⟨ran, [], self.runSpec lang req, by simp, by simp [Judge.compileFailure], ?_⟩
        have none := List.forall₂_drop ran.length isolated
        rw [List.drop_length] at none
        simpa using none
      | @tested compile compileOutput outs compiled extent tests =>
        subst tests
        refine ⟨compile, outs, self.runSpec lang req, rfl,
          self.executedRun_verdicts req [] none (req.tests.zip outs), ?_⟩
        have later := List.forall₂_drop compile.length isolated
        rw [List.drop_left] at later
        exact unjudged_of_isolated req.comparer later

theorem truncated_output_never_compared_sample :
    readCapped 4 ([[1, 2, 3], [4, 5]].map .ok ++ [.ok []]) = .ok ([1, 2, 3, 4], true) :=
  letI := plainHost
  (truncated_output_never_compared.1 [1, 2, 3, 4, 5] [[1, 2, 3], [4, 5]] 4 []
    ⟨by decide, by decide, rfl⟩).2

end Codexec
