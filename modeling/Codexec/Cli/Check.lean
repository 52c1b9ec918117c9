/-
**The command line: `codexec judge` and `codexec check-problem`.**

A command is a program over the calls of the judge, like `judge` itself; files are what they hold
when they are read. `check_problem` judges the files of `solutions/` in the order of their names and
compares each verdict with the label at the front of the file name.

* `Solution` — a labelled file, with the run that judged it.
* `checkFiles_ok` — the loop judges the labelled files one after the other and counts; by induction
  on the files, in both directions.
* `check_passes_iff` — the command succeeds exactly when every labelled file of every problem got
  the verdict of its label, and one of each problem is labelled and accepted.
-/

import Codexec.Judge.Loading
import Codexec.Judge.Execution
import Codexec.Judge.Collision

namespace Codexec.Cli

open Codexec Codexec.Library Program

/-! ### File names -/

/-- The text of bytes that are UTF-8. -/
def toStr (data : Bytes) : Option String :=
  if utf8 (fromUtf8Lossy data) = data then some (fromUtf8Lossy data) else none

/-- What stands before the last dot of a file name, and what stands after it. -/
def splitAtDot (file : Bytes) : Option Bytes × Option Bytes :=
  if file = utf8 ".." then (some file, none)
  else
    match file.reverse.dropWhile (· != 0x2E) with
    | [] => (none, some file)
    | _ :: before =>
      if before = [] then (some file, none)
      else (some before.reverse, some (file.reverse.takeWhile (· != 0x2E)).reverse)

/-- `Path::file_stem` -/
def fileStem (file : Bytes) : Option Bytes := (splitAtDot file).1.or (splitAtDot file).2

/-- `Path::extension` -/
def extension (file : Bytes) : Option Bytes := (splitAtDot file).1.bind fun _ => (splitAtDot file).2

/-- The front of a stem, in capital letters. -/
def label (stem : String) : String :=
  String.ofList ((stem.toList.takeWhile fun c => c != '-' && c != '_' && c != '.').map Char.toUpper)

/-- Expected verdict from a file name: `ac.py`, `wa-anything.go`, `tle.rs`. -/
def expectedVerdict (file : Bytes) : Option Verdict :=
  ((fileStem file).bind toStr).bind fun stem => Verdict.fromCode (label stem)

example : expectedVerdict (utf8 "wa-off-by-one.go") = some .wrongAnswer := by decide

/-! ### Commands -/

inductive CliError
  | problem (error : ProblemError)
  | judge (error : JudgeError)
  /-- An I/O error, and what was being done. -/
  | io (context source : String)
  | message (text : String)

/-- A file with source code. -/
structure SourceFile where
  /-- The path, as it is displayed. -/
  path : String
  /-- The last component of the path. -/
  name : Bytes
  contents : Except String String

/-- A problem directory with `solutions/`. -/
structure CheckedDir where
  problem : ProblemDir
  /-- The regular files of `solutions/`, in the order of their enumeration. -/
  solutions : Except String (List SourceFile)
  distinct : ∀ files, solutions = .ok files → (files.map SourceFile.name).Nodup

/-- The `?` operator. -/
def andThen {ε α β : Type} (first : JudgeM (Except ε α)) (next : α → JudgeM (Except ε β)) :
    JudgeM (Except ε β) :=
  first.bind fun
    | .ok value => next value
    | .error e => .pure (.error e)

/-- `files.sort()`: file names are compared by their bytes. -/
def sortFiles (files : List SourceFile) : List SourceFile :=
  files.insertionSort fun one two => one.name.map UInt8.toNat ≤ two.name.map UInt8.toNat

section Commands

variable [Host] (judge : Judge)

/-- The first language whose source files have the extension of `file`. -/
def languageFor (file : Bytes) : Except CliError String :=
  let ext := ((extension file).bind toStr).getD ""
  match (judge.languages.languages.map Prod.fst).find? fun id =>
      (((judge.languages.get id).bind fun lang => extension (utf8 lang.sourceFile)).bind toStr).any
        (· == ext) with
  | some id => .ok id
  | none => .error (.message
      ("no language uses the extension " ++ Host.debugStr ext ++ "; pass --lang"))

/-- The request of the command line. -/
def requestOf (problem : Problem) (lang code : String) (stop : Bool) : JudgeRequest where
  language := lang
  source := code
  tests := problem.tests
  timeLimitMs := problem.timeLimitMs
  memoryLimitKb := problem.memoryLimitKb
  comparer := problem.comparer
  stopOnFirstFailure := stop
  captureOutput := false
  showFailedInput := true

def run (problem : Problem) (lang : String) (source : SourceFile) (stop : Bool) :
    JudgeM (Except CliError JudgeResult) :=
  match source.contents with
  | .error e => .pure (.error (.io ("reading " ++ source.path) e))
  | .ok code =>
    (judge.judge (requestOf problem lang code stop) false).bind fun outcome =>
      .pure (outcome.mapError .judge)

/-- The loop of `check_problem`: failures, and accepted reference solutions. -/
def checkFiles (problem : Problem) : List SourceFile → Nat → Nat →
    JudgeM (Except CliError (Nat × Nat))
  | [], failures, accepted => .pure (.ok (failures, accepted))
  | file :: rest, failures, accepted =>
    match expectedVerdict file.name with
    | none => checkFiles problem rest failures accepted
    | some want =>
      match languageFor judge file.name with
      | .error e => .pure (.error e)
      | .ok lang =>
        andThen (run judge problem lang file true) fun res =>
          let ok := res.verdict == want
          checkFiles problem rest (failures + (!ok).toNat)
            (accepted + (ok && want == .accepted).toNat)

def checkProblem (sha256 : Bytes → Bytes) (dir : CheckedDir) : JudgeM (Except CliError Nat) :=
  match Problem.load sha256 dir.problem with
  | .error e => .pure (.error (.problem e))
  | .ok problem =>
    match dir.solutions with
    | .error e => .pure (.error (.io (dir.problem.path ++ " has no solutions/ directory") e))
    | .ok files =>
      andThen (checkFiles judge problem (sortFiles files) 0 0) fun (failures, accepted) =>
        .pure (.ok (if accepted = 0 then failures + 1 else failures))

/-- The failures of several problems. -/
def checkAll (sha256 : Bytes → Bytes) : List CheckedDir → Nat → JudgeM (Except CliError Nat)
  | [], failures => .pure (.ok failures)
  | dir :: rest, failures =>
    andThen (checkProblem judge sha256 dir) fun more => checkAll sha256 rest (failures + more)

/-- `codexec check-problem` -/
def checkCommand (sha256 : Bytes → Bytes) (problems : List CheckedDir) :
    JudgeM (Except CliError Unit) :=
  if problems.isEmpty then .pure (.error (.message "give at least one problem directory"))
  else
    andThen (checkAll judge sha256 problems 0) fun failures =>
      if failures > 0 then
        .pure (.error (.message s!"{failures} solution(s) did not get the expected verdict"))
      else .pure (.ok ())

/-- `codexec judge` -/
def judgeCommand (sha256 : Bytes → Bytes) (dir : ProblemDir) (lang : Option String) (all : Bool)
    (source : SourceFile) : JudgeM (Except CliError JudgeResult) :=
  match Problem.load sha256 dir with
  | .error e => .pure (.error (.problem e))
  | .ok problem =>
    match (lang.map Except.ok).getD (languageFor judge source.name) with
    | .error e => .pure (.error e)
    | .ok lang => run judge problem lang source (!all)

/-- The exit status of `codexec judge`. -/
def exitStatus : Except CliError JudgeResult → Nat
  | .ok res => if res.verdict != .accepted then 1 else 0
  | .error _ => 1

end Commands

/-! ### What a check has done -/

section Follows

variable {ε α β : Type} {transcript : List (Exchange Call.Answer)}

/-- Two commands that both succeed run one after the other. -/
theorem follows_andThen {first : JudgeM (Except ε α)} {next : α → JudgeM (Except ε β)} {value : β} :
    Follows (andThen first next) transcript (.pure (.ok value)) ↔
      ∃ before after middle, transcript = before ++ after ∧
        Follows first before (.pure (.ok middle)) ∧ Follows (next middle) after (.pure (.ok value)) := by
  constructor
  · intro follows
    obtain ⟨before, after, middle, same, one, two⟩ := Follows.of_bind follows
    cases middle with
    | ok middle => exact ⟨before, after, middle, same, one, two⟩
    | error e =>
      obtain ⟨-, failed⟩ := Follows.of_pure two
      cases failed
  · rintro ⟨before, after, middle, rfl, one, two⟩
    exact one.bind two

theorem follows_pure {value value' : α} :
    Follows (.pure value : JudgeM α) transcript (.pure value') ↔ transcript = [] ∧ value' = value := by
  constructor
  · intro follows
    obtain ⟨none, same⟩ := follows.of_pure
    cases same
    exact ⟨none, rfl⟩
  · rintro ⟨rfl, rfl⟩
    exact .refl _

end Follows

section Check

variable [Host] {judge : Judge} {problem : Problem}

/-- A labelled file, and the run that judged it. -/
structure Solution (judge : Judge) (problem : Problem) where
  file : SourceFile
  want : Verdict
  lang : String
  code : String
  transcript : List (Exchange Call.Answer)
  result : JudgeResult
  labelled : expectedVerdict file.name = some want
  chosen : languageFor judge file.name = .ok lang
  read : file.contents = .ok code
  judged : Follows (judge.judge (requestOf problem lang code true) false) transcript
    (.pure (.ok result))

namespace Solution

variable (self : Solution judge problem)

/-- The verdict is the one of the label. -/
def verified : Bool := self.result.verdict == self.want

/-- The label is `ac`, and so is the verdict. -/
def reference : Bool := self.verified && self.want == .accepted

end Solution

/-- The file has a label. -/
def labelled (file : SourceFile) : Bool := (expectedVerdict file.name).isSome

/-- The solutions are the labelled ones of the files, judged one after the other. -/
structure Judged (files : List SourceFile) (solutions : List (Solution judge problem))
    (transcript : List (Exchange Call.Answer)) : Prop where
  files : solutions.map Solution.file = files.filter labelled
  transcript : transcript = solutions.flatMap Solution.transcript

theorem follows_run {lang : String} {source : SourceFile} {stop : Bool} {result : JudgeResult}
    {transcript : List (Exchange Call.Answer)} :
    Follows (run judge problem lang source stop) transcript (.pure (.ok result)) ↔
      ∃ code, source.contents = .ok code ∧
        Follows (judge.judge (requestOf problem lang code stop) false) transcript
          (.pure (.ok result)) := by
  unfold run
  cases source.contents with
  | error e => simp [follows_pure]
  | ok code =>
    simp only [Except.ok.injEq, exists_eq_left']
    constructor
    · intro follows
      obtain ⟨before, after, middle, rfl, one, two⟩ := Follows.of_bind follows
      obtain ⟨rfl, same⟩ := Follows.of_pure two
      cases middle with
      | error e => cases same
      | ok value =>
        cases same
        rw [List.append_nil]
        exact one
    · intro follows
      rw [← List.append_nil transcript]
      exact follows.bind (.refl _)

omit [Host] in
theorem countP_first {α : Type} (p : α → Bool) (first : α) (rest : List α) :
    (first :: rest).countP p = (p first).toNat + rest.countP p := by
  rw [List.countP_cons, Nat.add_comm]
  cases p first <;> rfl

/-- **The loop judges the labelled files and counts**: those that did not get the verdict of their
label, and the accepted ones among those that did. -/
theorem checkFiles_ok {files : List SourceFile} {failures accepted : Nat} {counts : Nat × Nat}
    {transcript : List (Exchange Call.Answer)} :
    Follows (checkFiles judge problem files failures accepted) transcript (.pure (.ok counts)) ↔
      ∃ solutions : List (Solution judge problem), Judged files solutions transcript ∧
        counts = (failures + solutions.countP fun solution => !solution.verified,
          accepted + solutions.countP Solution.reference) := by
  induction files generalizing failures accepted transcript with
  | nil =>
    rw [checkFiles, follows_pure]
    constructor
    · rintro ⟨rfl, same⟩
      cases same
      exact ⟨[], ⟨rfl, rfl⟩, rfl⟩
    · rintro ⟨solutions, ⟨none, same⟩, rfl⟩
      obtain rfl := List.map_eq_nil_iff.mp none
      exact ⟨same, rfl⟩
  | cons file rest ih =>
    rw [checkFiles]
    cases found : expectedVerdict file.name with
    | none =>
      have skipped : (file :: rest).filter labelled = rest.filter labelled := by
        rw [List.filter_cons_of_neg]
        simp [labelled, found]
      simp only [ih]
      constructor
      · rintro ⟨solutions, ⟨files, same⟩, rfl⟩
        exact ⟨solutions, ⟨files.trans skipped.symm, same⟩, rfl⟩
      · rintro ⟨solutions, ⟨files, same⟩, rfl⟩
        exact ⟨solutions, ⟨files.trans skipped, same⟩, rfl⟩
    | some want =>
      have chosen : (file :: rest).filter labelled = file :: rest.filter labelled := by
        rw [List.filter_cons_of_pos]
        simp [labelled, found]
      cases language : languageFor judge file.name with
      | error e =>
        simp only [follows_pure]
        constructor
        · rintro ⟨-, failed⟩
          cases failed
        · rintro ⟨solutions, ⟨files, -⟩, -⟩
          rw [chosen] at files
          obtain ⟨first, -, -, same, -⟩ := List.map_eq_cons_iff.mp files
          have other := first.chosen
          rw [same, language] at other
          cases other
      | ok lang =>
        simp only [follows_andThen, follows_run, ih]
        constructor
        · rintro ⟨before, after, res, rfl, ⟨code, read, judged⟩, solutions, ⟨files, same⟩, rfl⟩
          refine ⟨⟨file, want, lang, code, before, res, found, language, read, judged⟩ :: solutions,
            ⟨?_, ?_⟩, ?_⟩
          · rw [List.map_cons, files, chosen]
          · rw [List.flatMap_cons, same]
          · simp only [countP_first, Nat.add_assoc]
            rfl
        · rintro ⟨solutions, ⟨files, rfl⟩, rfl⟩
          rw [chosen] at files
          obtain ⟨first, others, rfl, rfl, rest⟩ := List.map_eq_cons_iff.mp files
          obtain rfl : first.want = want := Option.some.inj (first.labelled.symm.trans found)
          obtain rfl : first.lang = lang := Except.ok.inj (first.chosen.symm.trans language)
          refine ⟨first.transcript, _, first.result, rfl, ⟨first.code, first.read, first.judged⟩,
            others, ⟨rest, rfl⟩, ?_⟩
          simp only [countP_first, Nat.add_assoc]
          rfl

/-! ### When a check passes -/

variable {sha256 : Bytes → Bytes} {dir : CheckedDir} {transcript : List (Exchange Call.Answer)}

/-- The directory was loaded, and its solutions were judged in the order of their names. -/
structure Checked (sha256 : Bytes → Bytes) (dir : CheckedDir) (problem : Problem)
    (solutions : List (Solution judge problem)) (transcript : List (Exchange Call.Answer)) :
    Prop where
  loads : Problem.load sha256 dir.problem = .ok problem
  judged : ∃ files, dir.solutions = .ok files ∧ Judged (sortFiles files) solutions transcript

/-- What counts against a problem: wrong verdicts, and that no reference solution was accepted. -/
def failuresOf (solutions : List (Solution judge problem)) : Nat :=
  let failures := solutions.countP fun solution => !solution.verified
  if solutions.countP Solution.reference = 0 then failures + 1 else failures

theorem checkProblem_ok {n : Nat} :
    Follows (checkProblem judge sha256 dir) transcript (.pure (.ok n)) ↔
      ∃ problem, ∃ solutions : List (Solution judge problem),
        Checked sha256 dir problem solutions transcript ∧ n = failuresOf solutions := by
  unfold checkProblem
  cases loads : Problem.load sha256 dir.problem with
  | error e =>
    simp only [follows_pure]
    constructor
    · rintro ⟨-, failed⟩
      cases failed
    · rintro ⟨problem, solutions, checked, -⟩
      cases loads.symm.trans checked.loads
  | ok problem =>
    cases listed : dir.solutions with
    | error e =>
      simp only [follows_pure]
      constructor
      · rintro ⟨-, failed⟩
        cases failed
      · rintro ⟨problem, solutions, ⟨-, files, listed', -⟩, -⟩
        cases listed.symm.trans listed'
    | ok files =>
      simp only [follows_andThen, follows_pure, checkFiles_ok]
      constructor
      · rintro ⟨before, after, counts, rfl, ⟨solutions, judged, rfl⟩, rfl, counted⟩
        refine ⟨problem, solutions, ⟨loads, files, listed, by rwa [List.append_nil]⟩, ?_⟩
        simp only [Nat.zero_add, Except.ok.injEq] at counted
        exact counted
      · rintro ⟨problem', solutions, ⟨loads', files', listed', judged⟩, rfl⟩
        cases loads.symm.trans loads'
        cases listed.symm.trans listed'
        refine ⟨transcript, [], _, (List.append_nil _).symm, ⟨solutions, judged, rfl⟩, rfl, ?_⟩
        simp only [Nat.zero_add, failuresOf]

/-- Every labelled solution got the verdict of its label, and there is an accepted one. -/
def Passes (judge : Judge) (sha256 : Bytes → Bytes) (dir : CheckedDir)
    (transcript : List (Exchange Call.Answer)) : Prop :=
  ∃ problem, ∃ solutions : List (Solution judge problem),
    Checked sha256 dir problem solutions transcript ∧
      (∀ solution ∈ solutions, solution.result.verdict = solution.want) ∧
      ∃ solution ∈ solutions, solution.want = .accepted

theorem failuresOf_eq_zero {solutions : List (Solution judge problem)} :
    0 = failuresOf solutions ↔
      (∀ solution ∈ solutions, solution.result.verdict = solution.want) ∧
        ∃ solution ∈ solutions, solution.want = .accepted := by
  have failures : (solutions.countP fun solution => !solution.verified) = 0 ↔
      ∀ solution ∈ solutions, solution.result.verdict = solution.want := by
    simp [List.countP_eq_zero, Solution.verified]
  have references : solutions.countP Solution.reference = 0 ↔
      ∀ solution ∈ solutions, solution.result.verdict = solution.want → ¬ solution.want = .accepted := by
    simp [List.countP_eq_zero, Solution.reference, Solution.verified]
  unfold failuresOf
  simp only []
  split
  · rename_i none
    refine iff_of_false (Nat.succ_ne_zero _).symm ?_
    rintro ⟨all, solution, inside, want⟩
    exact references.mp none solution inside (all solution inside) want
  · rename_i some
    rw [eq_comm, failures]
    refine ⟨fun all => ⟨all, ?_⟩, And.left⟩
    by_contra none
    exact some (references.mpr fun solution inside _ want => none ⟨solution, inside, want⟩)

theorem checkProblem_passes :
    Follows (checkProblem judge sha256 dir) transcript (.pure (.ok 0)) ↔
      Passes judge sha256 dir transcript := by
  simp only [checkProblem_ok, failuresOf_eq_zero]
  rfl

/-- Several problems pass one after the other. -/
theorem checkAll_passes {dirs : List CheckedDir} {failures : Nat} :
    Follows (checkAll judge sha256 dirs failures) transcript (.pure (.ok 0)) ↔
      failures = 0 ∧ ∃ parts, List.Forall₂ (Passes judge sha256) dirs parts ∧
        transcript = parts.flatten := by
  induction dirs generalizing failures transcript with
  | nil =>
    rw [checkAll, follows_pure]
    constructor
    · rintro ⟨rfl, same⟩
      exact ⟨(Except.ok.inj same).symm, [], .nil, rfl⟩
    · rintro ⟨rfl, parts, all, rfl⟩
      cases all
      exact ⟨rfl, rfl⟩
  | cons dir rest ih =>
    simp only [checkAll, follows_andThen, ih]
    constructor
    · rintro ⟨before, after, more, rfl, one, none, parts, all, rfl⟩
      obtain ⟨rfl, rfl⟩ := Nat.add_eq_zero_iff.mp none
      exact ⟨rfl, before :: parts, .cons (checkProblem_passes.mp one) all, rfl⟩
    · rintro ⟨rfl, parts, all, rfl⟩
      cases all with
      | @cons _ before _ parts one all =>
        exact ⟨before, parts.flatten, 0, rfl, checkProblem_passes.mpr one, rfl, parts, all, rfl⟩

/-- **The check passes exactly when the labels are right.** `codexec check-problem` succeeds if and
only if there is a problem to check and, in each one, every labelled solution got the verdict that
its file name promises, and one that promises `ac` is there. Its calls are those of judging the
labelled solutions, in the order of the file names. -/
theorem check_passes_iff {dirs : List CheckedDir} :
    Follows (checkCommand judge sha256 dirs) transcript (.pure (.ok ())) ↔
      dirs ≠ [] ∧ ∃ parts, List.Forall₂ (Passes judge sha256) dirs parts ∧
        transcript = parts.flatten := by
  unfold checkCommand
  cases dirs with
  | nil => simp [follows_pure]
  | cons dir rest =>
    rw [if_neg (by simp), follows_andThen]
    constructor
    · rintro ⟨before, after, failures, rfl, all, finish⟩
      cases failures with
      | succ failures =>
        obtain ⟨-, failed⟩ := follows_pure.mp finish
        cases failed
      | zero =>
        obtain ⟨rfl, -⟩ := follows_pure.mp finish
        rw [List.append_nil]
        exact ⟨List.cons_ne_nil _ _, (checkAll_passes.mp all).2⟩
    · rintro ⟨-, parts⟩
      exact ⟨transcript, [], 0, (List.append_nil _).symm, checkAll_passes.mpr ⟨rfl, parts⟩, .refl _⟩

/-! ### The exit status of `codexec judge` -/

/-- What `codexec judge` has done when it exits with status zero: the problem was loaded, its
language is known, and every test was executed and passed, after the compile step if there is one. -/
structure Exited (judge : Judge) (sha256 : Bytes → Bytes) (dir : ProblemDir) (lang : Option String)
    (source : SourceFile) (transcript : List (Exchange Call.Answer)) : Prop where
  passed : ∃ problem id language code compile compileOutput outs,
    Problem.load sha256 dir = .ok problem ∧
    (lang.map Except.ok).getD (languageFor judge source.name) = .ok id ∧
    judge.languages.get id = some language ∧ source.contents = .ok code ∧
    Judge.Compiled judge language compile compileOutput ∧
    executions transcript = compile ++ (problem.tests.zip outs).map (Judge.testExecution
      (judge.runSpec language (requestOf problem id code true))) ∧
    List.Forall₂ (Judge.Passed problem.comparer) problem.tests outs

/-- **A zero exit status means that every test passed**, whether or not the rest would have been
run. -/
theorem judge_exits_zero {dir : ProblemDir} {lang : Option String} {all : Bool}
    {source : SourceFile} {outcome : Except CliError JudgeResult}
    (follows : Follows (judgeCommand judge sha256 dir lang all source) transcript (.pure outcome))
    (exits : exitStatus outcome = 0) : Exited judge sha256 dir lang source transcript := by
  cases outcome with
  | error e => cases exits
  | ok result =>
    have accepted : result.verdict = .accepted := by
      by_contra other
      have status : exitStatus (.ok result) = 1 := if_pos (bne_iff_ne.mpr other)
      cases status.symm.trans exits
    unfold judgeCommand at follows
    cases loads : Problem.load sha256 dir with
    | error e =>
      rw [loads] at follows
      cases (follows_pure.mp follows).2
    | ok problem =>
      cases chosen : (lang.map Except.ok).getD (languageFor judge source.name) with
      | error e =>
        simp only [loads, chosen] at follows
        cases (follows_pure.mp follows).2
      | ok id =>
        simp only [loads, chosen, follows_run] at follows
        obtain ⟨code, read, judged⟩ := follows
        obtain ⟨language, known, executed⟩ := Judge.judge_executes judged
        obtain ⟨-, -, compile, output, outs, compiled, ran, passed⟩ := executed.accepted accepted
        exact ⟨problem, id, language, code, compile, output, outs, loads, chosen, known, read,
          compiled, ran, passed⟩

/-! ### The order of the directory -/

omit [Host] in
/-- **Files with distinct names are sorted in one way.** -/
theorem sortFiles_perm {files files' : List SourceFile} (perm : files.Perm files')
    (distinct : (files.map SourceFile.name).Nodup) : sortFiles files' = sortFiles files := by
  have same : (sortFiles files').Perm (sortFiles files) :=
    (List.perm_insertionSort _ _).trans (perm.symm.trans (List.perm_insertionSort _ _).symm)
  have sorted (files : List SourceFile) : (sortFiles files).Pairwise fun one two =>
      one.name.map UInt8.toNat ≤ two.name.map UInt8.toNat := List.pairwise_insertionSort _ _
  refine same.eq_of_pairwise (fun one two here there le ge => ?_) (sorted files') (sorted files)
  have inside : one ∈ files ∧ two ∈ files :=
    ⟨(List.perm_insertionSort _ _).mem_iff.mp (same.mem_iff.mp here),
      (List.perm_insertionSort _ _).mem_iff.mp there⟩
  have injective : Function.Injective UInt8.toNat := fun _ _ => UInt8.toNat_inj.mp
  have names : one.name = two.name := List.map_injective_iff.mpr injective (le_antisymm le ge)
  exact List.inj_on_of_nodup_map distinct inside.1 inside.2 names

/-- The same directory, enumerated in another order. -/
structure CheckedDir.Reordered (dir dir' : CheckedDir) : Prop where
  problem : dir.problem.Reordered dir'.problem
  solutions : Enumerated List.Perm dir.solutions dir'.solutions

theorem checkProblem_reordered {dir dir' : CheckedDir} (reordered : dir.Reordered dir') :
    checkProblem judge sha256 dir' = checkProblem judge sha256 dir := by
  unfold checkProblem
  rw [Problem.load_reordered reordered.problem, reordered.problem.path]
  have both := reordered.solutions
  have distinct := dir.distinct
  generalize dir.solutions = found, dir'.solutions = found' at both distinct
  cases both with
  | failed source => rfl
  | listed perm => simp only [sortFiles_perm perm (distinct _ rfl)]

/-- **A check does not depend on the order of directories' entries**: it makes the same calls and has
the same outcome. -/
theorem check_ignores_order {dirs dirs' : List CheckedDir}
    (reordered : List.Forall₂ CheckedDir.Reordered dirs dirs') :
    checkCommand judge sha256 dirs' = checkCommand judge sha256 dirs := by
  have all (failures : Nat) :
      checkAll judge sha256 dirs' failures = checkAll judge sha256 dirs failures := by
    induction reordered generalizing failures with
    | nil => rfl
    | cons first _ ih => simp only [checkAll, checkProblem_reordered first, ih]
  unfold checkCommand
  rw [all]
  cases reordered with
  | nil => rfl
  | cons _ _ => rfl

end Check

/-! ### A directory with two solutions -/

def acFile : SourceFile := ⟨"problem/solutions/ac.py", utf8 "ac.py", .ok "print()"⟩

def waFile : SourceFile := ⟨"problem/solutions/wa.py", utf8 "wa.py", .ok "print(3)"⟩

def rsFile : SourceFile := ⟨"problem/solutions/ac.rs", utf8 "ac.rs", .ok "fn main() {}"⟩

def checkedDirOf (files : List SourceFile) (distinct : (files.map SourceFile.name).Nodup) :
    CheckedDir where
  problem := dirOf [testA] loaded_testA
  solutions := .ok files
  distinct := by
    rintro _ ⟨⟩
    exact distinct

theorem check_ignores_order_sample : letI := plainHost
    checkCommand sampleJudge id [checkedDirOf [waFile, acFile] (by decide)] =
      checkCommand sampleJudge id [checkedDirOf [acFile, waFile] (by decide)] := by
  let host := plainHost
  have same : (dirOf [testA] loaded_testA).Reordered (dirOf [testA] loaded_testA) :=
    ⟨rfl, rfl, rfl, rfl, rfl, .listed (.refl _)⟩
  exact check_ignores_order
    (.cons ⟨same, .listed (List.Perm.swap waFile acFile [])⟩ .nil)

end Codexec.Cli
