/-
**What `check-problem` has verified, the server confirms.**

`check_problem` judges a solution as a worker judges a submission, except for what it shows and that
nobody listens to its progress. A submission with the source of a verified solution, on a server
that serves the same problem with the same engine, is stored with the verdict that the file name
promises, whenever its commands have the same outcomes (`verified_solutions_served`).
-/

import Codexec.Cli.Check
import Codexec.Judge.Modes
import Codexec.Server.Authentic

namespace Codexec.Cli

open Codexec Codexec.Library Codexec.Server Program Machine

section Served

variable [Host] {judge : Judge} {problem : Problem} {s : System} {id : String} {sub : Submission}

/-- All processes judge with this engine, and serve this problem. -/
def Serves (judge : Judge) (problem : Problem) (s : System) : Prop :=
  ∀ settings ∈ s.loaded, settings.judge = judge ∧
    settings.problems.get problem.slug = some problem

/-- The source of the solution was submitted, and judging it went as in the check. -/
structure SubmittedAs (s : System) (id : String) (sub : Submission)
    (solution : Solution judge problem) : Prop where
  problem : sub.problem = problem.slug
  language : sub.language = solution.lang
  source : (s.queue.store.sources.get id).map Source.source = some solution.code
  agree : ∀ j ∈ s.judged, j.job.id = id →
    Agree (executions solution.transcript) (executions j.transcript)

/-- The submission shows the result of the solution, up to what the server withholds. -/
structure ServedAs (sub : Submission) (solution : Solution judge problem) : Prop where
  verdict : sub.verdict = some solution.want
  timeMs : sub.timeMs = some solution.result.timeMs
  memoryKb : sub.memoryKb = some solution.result.memoryKb
  failedTest : sub.failedTest = solution.result.failedTest
  compileOutput : sub.compileOutput = solution.result.compileOutput
  testsTotal : sub.testsTotal = solution.result.testsTotal
  tests : sub.tests.map (List.map TestResult.withheld) =
    some (solution.result.tests.map TestResult.withheld)

omit [Host] in
/-- The request of a worker is that of the command line, in another mode. -/
theorem requestFor_mode {job : Job} {lang code : String} (language : job.language = lang)
    (source : job.source = code) : requestFor job problem =
      (requestOf problem lang code true).mode true false problem.showFailedInput := by
  subst language source
  rfl

/-- **A worker returns the result of the check**, up to what it withholds. -/
theorem Solution.judged_again (solution : Solution judge problem) {job : Job}
    (language : job.language = solution.lang) (source : job.source = solution.code)
    {progress : Bool} {transcript : List (Exchange Call.Answer)} {result : JudgeResult}
    (follows : Follows (judge.judge (requestFor job problem) progress) transcript
      (.pure (.ok result)))
    (agree : Agree (executions solution.transcript) (executions transcript)) :
    solution.result.bare = result.bare := by
  rw [requestFor_mode language source] at follows
  obtain ⟨lang, known, executed⟩ := Judge.judge_executes solution.judged
  obtain ⟨lang', known', executed'⟩ := Judge.judge_executes follows
  have same : some lang = some lang' := known.symm.trans known'
  cases same
  have own : requestOf problem solution.lang solution.code true =
      (requestOf problem solution.lang solution.code true).mode true false true := rfl
  rw [own] at executed
  exact executed.bare executed' agree

theorem Solution.served (solution : Solution judge problem) (reachable : system.Reachable s)
    (serves : Serves judge problem s) (shows : ShowsVerdict s id sub)
    (submitted : SubmittedAs s id sub solution)
    (verified : solution.result.verdict = solution.want) : ServedAs sub solution := by
  obtain ⟨j, inside, shown⟩ := shows_of_reachable reachable shows
  obtain ⟨settings, loaded, engine, found⟩ := shown.loaded
  obtain ⟨engine', found'⟩ := serves settings loaded
  rw [← shown.problem, submitted.problem] at found
  have problems : j.problem = problem := Option.some.inj (found.symm.trans found')
  have engines : j.judge = judge := engine.symm.trans engine'
  have source : j.job.source = solution.code := by
    have stored := submitted.source
    rw [shown.source] at stored
    exact Option.some.inj stored
  have follows := j.follows
  rw [problems, engines] at follows
  have bare := solution.judged_again (shown.language.symm.trans submitted.language) source follows
    (submitted.agree j inside shown.own)
  simp only [JudgeResult.bare, JudgeResult.mk.injEq] at bare
  obtain ⟨verdict, timeMs, memoryKb, failedTest, compileOutput, tests, testsTotal⟩ := bare
  refine ⟨?_, ?_, ?_, ?_, ?_, ?_, ?_⟩
  · rw [shown.verdict, ← verified, verdict]
  · rw [shown.timeMs, timeMs]
  · rw [shown.memoryKb, memoryKb]
  · rw [shown.failedTest, failedTest]
  · rw [shown.compileOutput, compileOutput]
  · rw [shown.testsTotal, testsTotal]
  · rw [shown.tests, tests]
    rfl

/-- **What a check has verified, the server confirms.** If a problem passes `check_problem`, then a
submission of one of its solutions is stored with the verdict that the file name promises, and with
the numbers of that check, in every run of a server that serves the problem, if the commands have
the same outcomes as in the check. -/
theorem verified_solutions_served {sha256 : Bytes → Bytes} {dir : CheckedDir}
    {transcript : List (Exchange Call.Answer)}
    (passes : Follows (checkProblem judge sha256 dir) transcript (.pure (.ok 0))) :
    ∃ problem, ∃ solutions : List (Solution judge problem),
      Checked sha256 dir problem solutions transcript ∧
      (∀ solution ∈ solutions, solution.result.verdict = solution.want) ∧
      (∃ solution ∈ solutions, solution.want = .accepted) ∧
      ∀ solution ∈ solutions, ∀ (s : System) id sub, system.Reachable s →
        Serves judge problem s → ShowsVerdict s id sub → SubmittedAs s id sub solution →
        ServedAs sub solution := by
  obtain ⟨problem, solutions, checked, verified, reference⟩ := checkProblem_passes.mp passes
  refine ⟨problem, solutions, checked, verified, reference, ?_⟩
  intro solution inside s id sub reachable serves shows submitted
  exact solution.served reachable serves shows submitted (verified solution inside)

end Served

/-! ### A check that passes -/

/-- The problem of the sample directory. -/
def checkedProblem : Problem where
  slug := "problem"
  title := "Problem"
  difficulty := "medium"
  tags := []
  timeLimitMs := 1000
  memoryLimitKb := 262144
  comparer := .lines
  showFailedInput := false
  statement := ""
  tests := [testA]
  sampleNames := []
  version := hex (@versionInput plainHost { title := "Problem" } [testA])
  loaded := loaded_testA

theorem loads_checkedProblem :
    @Problem.load plainHost id (dirOf [testA] loaded_testA) = .ok checkedProblem := by
  let host := plainHost
  rw [Problem.load, contents_dirOf]
  rfl

/-- The reference solution, which prints nothing and is accepted. -/
theorem reference_solution : letI := plainHost
    ∃ solution : Solution sampleJudge checkedProblem, solution.file = acFile ∧
      solution.want = .accepted ∧ solution.result.verdict = .accepted ∧
      solution.transcript = transcript (sampleSandbox .ok "" "") []
        (sampleJudge.judge (requestOf checkedProblem "python" "print()" true) false) := by
  let host := plainHost
  have follows := follows_transcript (sampleSandbox .ok "" "") []
    (sampleJudge.judge (requestOf checkedProblem "python" "print()" true) false)
  have returned : ∃ result, (Program.run (sampleSandbox .ok "" "") []
      (sampleJudge.judge (requestOf checkedProblem "python" "print()" true) false)).1 = .ok result ∧
        result.verdict = .accepted := ⟨_, rfl, rfl⟩
  obtain ⟨result, same, verdict⟩ := returned
  rw [same] at follows
  exact ⟨⟨acFile, .accepted, "python", "print()", _, result, by decide, rfl, rfl, follows⟩, rfl,
    rfl, verdict, rfl⟩

/-- A directory with this solution passes. -/
theorem sample_passes : letI := plainHost
    Follows (checkProblem sampleJudge id (checkedDirOf [acFile] (by decide)))
      (transcript (sampleSandbox .ok "" "") []
        (sampleJudge.judge (requestOf checkedProblem "python" "print()" true) false))
      (.pure (.ok 0)) := by
  let host := plainHost
  obtain ⟨ac, file, want, verdict, steps⟩ := reference_solution
  have sorted : (sortFiles [acFile]).filter labelled = [acFile] := rfl
  refine checkProblem_passes.mpr
    ⟨checkedProblem, [ac], ⟨loads_checkedProblem, _, rfl, ?_, ?_⟩, ?_, ?_⟩
  · rw [sorted, List.map_singleton, file]
  · rw [List.flatMap_singleton, steps]
  · intro solution inside
    rw [List.mem_singleton.mp inside, want, verdict]
  · exact ⟨ac, List.mem_cons_self, want⟩

/-- A server with the problem of the sample directory. -/
def checkedSettings : Settings :=
  { sampleSettings with problems := ⟨[checkedProblem], List.nodup_singleton _⟩ }

set_option maxRecDepth 10000 in
/-- Somebody submits the reference solution. -/
theorem reference_submitted : letI := plainHost
    ∃ (s : System) (sub : Submission), system.Reachable s ∧ Serves sampleJudge checkedProblem s ∧
      ShowsVerdict s "s1" sub ∧ sub.problem = "problem" ∧ sub.language = "python" ∧
      (s.queue.store.sources.get "s1").map Source.source = some "print()" ∧
      ∀ j ∈ s.judged, ∃ execution : Execution, executions j.transcript = [execution] ∧
        execution.2.2 = .ok ⟨.ok, utf8 "", utf8 "", 10, 20, 3000⟩ := by
  let host := plainHost
  have run := (run_started checkedSettings).next (Step.insert (worldAt 0)
    { sampleSubmission with problem := "problem", source := "print()" })
  have run := run.next (Step.claim 0 (worldAt 0) rfl)
  have run := run.next (Step.begin 0 rfl rfl)
  have run := run.next (Step.call 0 rfl rfl (by exact .ok ()))
  have run := run.next (Step.call 0 rfl rfl (by exact .ok ()))
  have run := run.next (Step.call 0 rfl rfl (by exact ()))
  have run := run.next (Step.heartbeat 0 (worldAt 0) rfl rfl rfl rfl)
  have run := run.next (Step.beatFetch 0 (worldAt 0) rfl rfl)
  have run := run.next (Step.beatPublish 0 rfl rfl)
  have run := run.next (Step.call 0 rfl rfl (by exact .ok ⟨.ok, utf8 "", utf8 "", 10, 20, 3000⟩))
  have run := run.next (Step.call 0 rfl rfl (by exact ()))
  have run := run.next (Step.heartbeat 0 (worldAt 0) rfl rfl rfl rfl)
  have run := run.next (Step.beatFetch 0 (worldAt 0) rfl rfl)
  have run := run.next (Step.beatPublish 0 rfl rfl)
  have run := run.next (Step.call 0 rfl rfl (by exact .ok ()))
  have run := run.next (Step.returned 0 rfl rfl rfl rfl)
  have run := run.next (Step.store 0 (worldAt 0) rfl rfl)
  refine ⟨_, _, ⟨_, run⟩, ?_, ⟨⟨worldAt 0, rfl⟩, rfl, ?_⟩, rfl, rfl, rfl, ?_⟩
  · intro settings inside
    cases List.mem_singleton.mp inside
    exact ⟨rfl, rfl⟩
  · exact fun same => by cases same
  · intro j inside
    cases List.mem_singleton.mp inside
    exact ⟨_, rfl, rfl⟩

/-- The check passes, and the submission of its solution is accepted too. -/
theorem verified_solutions_served_sample : letI := plainHost
    ∃ (solution : Solution sampleJudge checkedProblem) (s : System) (sub : Submission),
      solution.file = acFile ∧ ShowsVerdict s "s1" sub ∧ ServedAs sub solution := by
  let host := plainHost
  obtain ⟨s, sub, reachable, serves, shows, problem, language, source, executed⟩ :=
    reference_submitted
  obtain ⟨_, solutions, ⟨loads, files, listed, judged⟩, -, -, served⟩ :=
    verified_solutions_served sample_passes
  obtain rfl : checkedProblem = _ := Except.ok.inj (loads_checkedProblem.symm.trans loads)
  obtain rfl : [acFile] = files := Except.ok.inj listed
  have sorted : (sortFiles [acFile]).filter labelled = [acFile] := rfl
  obtain ⟨solution, rfl, file⟩ := List.map_eq_singleton_iff.mp (judged.files.trans sorted)
  have lang : solution.lang = "python" := by
    have chosen := solution.chosen
    rw [file] at chosen
    exact (Except.ok.inj chosen).symm
  have code : solution.code = "print()" := by
    have read := solution.read
    rw [file] at read
    exact (Except.ok.inj read).symm
  refine ⟨solution, s, sub, file, shows, served solution List.mem_cons_self s "s1" sub reachable
    serves shows ⟨problem, language.trans lang.symm, source.trans (congrArg some code.symm), ?_⟩⟩
  intro j inside _
  obtain ⟨execution, same, out⟩ := executed j inside
  have steps := judged.transcript
  rw [List.flatMap_singleton] at steps
  obtain ⟨first, alone, out'⟩ : ∃ first : Execution, executions (transcript
      (sampleSandbox .ok "" "") []
      (sampleJudge.judge (requestOf checkedProblem "python" "print()" true) false)) = [first] ∧
      first.2.2 = .ok ⟨.ok, utf8 "", utf8 "", 10, 20, 3000⟩ := ⟨_, rfl, rfl⟩
  rw [← steps, alone, same]
  rintro (_ | i) one two here there
  · cases here
    cases there
    rw [out, out']
  · cases here

/-- A program in Rust is compiled and then executed. -/
theorem judge_exits_zero_sample : letI := plainHost
    ∃ transcript, (executions transcript).length = 2 ∧
      Exited sampleJudge id (dirOf [testA] loaded_testA) none rsFile transcript := by
  let host := plainHost
  let program := sampleJudge.judge (requestOf checkedProblem "rust" "fn main() {}" true) false
  have judged := follows_transcript (sampleSandbox .ok "" "") [] program
  have returned : ∃ result, (Program.run (sampleSandbox .ok "" "") [] program).1 = .ok result ∧
      result.verdict = .accepted := ⟨_, rfl, rfl⟩
  obtain ⟨result, same, verdict⟩ := returned
  rw [same] at judged
  have chosen : languageFor sampleJudge rsFile.name = .ok "rust" := rfl
  have follows : Follows
      (judgeCommand sampleJudge id (dirOf [testA] loaded_testA) none false rsFile)
      (transcript (sampleSandbox .ok "" "") [] program) (.pure (.ok result)) := by
    unfold judgeCommand
    simp only [loads_checkedProblem, Option.map_none, Option.getD_none, chosen]
    exact follows_run.mpr ⟨_, rfl, judged⟩
  exact ⟨_, rfl, judge_exits_zero follows (by rw [exitStatus, verdict]; rfl)⟩

end Codexec.Cli
