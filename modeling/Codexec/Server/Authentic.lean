/-
**Authenticity of stored verdicts.**

A row that is done is an internal error or records a result that `judge` returned for this
submission, in the attempt of the row and on the tests of the version it names (`Records`). What
`Store::get` shows of it is that result. With a sandbox that gives one answer to every call, two
results for the same problem, language and source are equal, in any two runs.
-/

import Codexec.Server.Refine

namespace Codexec.Server

open Codexec Codexec.Library Machine Program

section Server

variable [Host]

/-- The row holds a result that `judge` returned. -/
structure Records (j : Judgement) (row : Row) : Prop where
  id : row.id = j.job.id
  attempt : row.attempt = j.job.attempt.toNat
  verdict : row.verdict = some j.result.verdict.code
  timeMs : row.timeMs = some j.result.timeMs.toInt64
  memoryKb : row.memoryKb = some j.result.memoryKb.toInt64
  failedTest : row.failedTest = j.result.failedTest
  compileOutput : row.compileOutput = j.result.compileOutput
  testResults : row.testResults = some (testsToJson j.result.tests)
  testsDone : row.testsDone = j.result.tests.length
  testsTotal : row.testsTotal = j.result.testsTotal
  problemVersion : row.problemVersion = j.problem.version
  judgeVersion : row.judgeVersion = some judgeVersion

/-- Given up, or a result that `judge` returned. -/
def Explained (s : System) (row : Row) : Prop :=
  row.verdict = some "IE" ∨ ∃ j ∈ s.judged, Records j row

theorem explained_of_step {s : System} {op : Op} {row next : Row} (returned : Returned s op)
    (before : row.status = .done → Explained s row) (step : RowStep op row next)
    (permitted : op.Permitted s.queue.issued) (done : next.status = .done) : Explained s next := by
  cases step with
  | same => exact before done
  | claimed _ => cases done
  | @progressed world token reported _ _ _ _ _ _ _ =>
    have same : reported = .done := done
    have flying := permitted.2
    rw [same] at flying
    cases flying
  | finished key own _ =>
    obtain ⟨j, inside, rfl, rfl, rfl, rfl⟩ := returned
    exact Or.inr ⟨j, inside, key, own, rfl, rfl, rfl, rfl, rfl, rfl, rfl, rfl, rfl, rfl⟩
  | gaveUp _ _ _ _ => exact Or.inl rfl
  | retried _ _ _ _ => cases done
  | sweptUp _ => exact Or.inl rfl
  | sweptBack _ => cases done
  | restarted _ _ => cases done

/-- **Every row that is done is explained.** -/
theorem explained_invariant : system.Invariant fun s => Sound s ∧
    ∀ id row, s.queue.store.submissions.get id = some row → row.status = .done →
      Explained s row where
  start := by
    intro s initial
    refine ⟨sound_invariant.start s initial, ?_⟩
    obtain ⟨settings, rfl⟩ := initial
    intro id row found
    cases found
  step := by
    rintro s event after ⟨sound, explained⟩ step
    refine ⟨sound_invariant.step s event after sound step, ?_⟩
    have grows : Grows s after := Step.grows step
    have keeps : ∀ {row}, Explained s row → Explained after row := by
      rintro row (failed | ⟨j, inside, records⟩)
      · exact Or.inl failed
      · exact Or.inr ⟨j, grows.judged j inside, records⟩
    intro id next found done
    rcases Step.calls sound step with same | ⟨op, same, permitted, returned⟩
    · rw [same] at found
      exact keeps (explained id next found done)
    · rw [same] at found
      cases held : s.queue.store.submissions.get id with
      | none =>
        obtain ⟨_, _, _, _, rfl, _⟩ := Op.row_new held found
        cases done
      | some row =>
        obtain ⟨next', found', moved⟩ := op.row_cases held
        cases found.symm.trans found'
        exact keeps (explained_of_step returned (explained id row held) moved permitted done)

/-! ### What `get` shows -/

/-- The submission shows a result that `judge` returned for its own source and language, on a loaded
problem of its version, in its attempt. -/
structure Shows (s : System) (id : String) (sub : Submission) (j : Judgement) : Prop where
  own : j.job.id = id
  attempt : sub.attempt = j.job.attempt
  language : sub.language = j.job.language
  source : s.queue.store.sources.get id = some ⟨id, j.job.source⟩
  problem : sub.problem = j.job.problem
  loaded : Loaded s j.judge j.job j.problem
  problemVersion : sub.problemVersion = j.problem.version
  judgeVersion : sub.judgeVersion = some judgeVersion
  verdict : sub.verdict = some j.result.verdict
  timeMs : sub.timeMs = some j.result.timeMs
  memoryKb : sub.memoryKb = some j.result.memoryKb
  failedTest : sub.failedTest = j.result.failedTest
  compileOutput : sub.compileOutput = j.result.compileOutput
  tests : sub.tests = some j.result.tests
  testsDone : sub.testsDone = j.result.tests.length
  testsTotal : sub.testsTotal = j.result.testsTotal

/-- A submission that is judged. -/
def ShowsVerdict (s : System) (id : String) (sub : Submission) : Prop :=
  (∃ world, s.queue.store.get world id = .ok (some sub)) ∧ sub.status = .done ∧
    sub.verdict ≠ some .internalError

theorem shows_of_reachable {s : System} (reachable : system.Reachable s) {id : String}
    {sub : Submission} (shows : ShowsVerdict s id sub) : ∃ j ∈ s.judged, Shows s id sub j := by
  obtain ⟨⟨world, got⟩, done, verdict⟩ := shows
  obtain ⟨row, found, rfl⟩ := Store.row_of_get got
  obtain ⟨sound, explained⟩ := explained_invariant.of_reachable reachable
  rcases explained id row found done with failed | ⟨j, inside, records⟩
  · refine absurd ?_ verdict
    show row.verdict.bind Verdict.fromCode = _
    rw [failed]
    rfl
  · obtain ⟨holds, loaded⟩ := sound.judged j inside
    have key : row.id = id := Table.get_key found
    have id : j.job.id = id := records.id.symm.trans key
    subst id
    obtain ⟨row', found', problem, language⟩ := holds.row
    cases found.symm.trans found'
    refine ⟨j, inside, rfl, ?_, language, holds.source, problem, loaded, records.problemVersion,
      records.judgeVersion, ?_, ?_, ?_, records.failedTest, records.compileOutput, ?_,
      records.testsDone, records.testsTotal⟩
    · show UInt32.ofNat row.attempt = _
      rw [records.attempt, UInt32.ofNat_toNat]
    · show row.verdict.bind Verdict.fromCode = _
      rw [records.verdict]
      exact Verdict.fromCode_code _
    · show row.timeMs.map Int64.toUInt64 = _
      rw [records.timeMs]
      rfl
    · show row.memoryKb.map Int64.toUInt64 = _
      rw [records.memoryKb]
      rfl
    · show row.testResults.bind testsFromJson = _
      rw [records.testResults]
      exact testsFromJson_testsToJson _

/-- Every answer that judging got is a permitted one. -/
def AnsweredBy (allows : Answers Call.Answer) (s : System) : Prop :=
  ∀ j ∈ s.judged, Permitted allows [] j.transcript

/-- All processes judge with the same engine and the same problems. -/
def Fixed (judge : Judge) (problems : ProblemSet) (s : System) : Prop :=
  ∀ settings ∈ s.loaded, settings.judge = judge ∧ settings.problems = problems

/-- **With one answer to every call, judging a job again returns the same result.** -/
theorem judged_alike {allows : Answers Call.Answer}
    (unique : ∀ history request first second, allows history request first →
      allows history request second → first = second)
    {judge : Judge} {problems : ProblemSet} {s s' : System} {j j' : Judgement}
    (fixed : Fixed judge problems s) (fixed' : Fixed judge problems s')
    (answered : Permitted allows [] j.transcript) (answered' : Permitted allows [] j'.transcript)
    (loaded : Loaded s j.judge j.job j.problem) (loaded' : Loaded s' j'.judge j'.job j'.problem)
    (problem : j.job.problem = j'.job.problem) (language : j.job.language = j'.job.language)
    (source : j.job.source = j'.job.source) : j.problem = j'.problem ∧ j.result = j'.result := by
  obtain ⟨settings, inside, engine, found⟩ := loaded
  obtain ⟨settings', inside', engine', found'⟩ := loaded'
  rw [(fixed settings inside).2, problem] at found
  rw [(fixed' settings' inside').2] at found'
  have problems : j.problem = j'.problem := Option.some.inj (found.symm.trans found')
  have engines : j.judge = j'.judge := by
    rw [← engine, ← engine', (fixed settings inside).1, (fixed' settings' inside').1]
  have requests : requestFor j.job j.problem = requestFor j'.job j'.problem := by
    rw [requestFor, requestFor, problems, language, source]
  have follows := j.follows
  rw [engines, requests] at follows
  have results := (follows_unique unique answered answered' follows j'.follows).2
  exact ⟨problems, Except.ok.inj results⟩

/-- Every test of the problem was executed and passed, after the compile step if there is one. -/
structure AllPassed (sub : Submission) (j : Judgement) : Prop where
  testsDone : sub.testsDone = sub.testsTotal
  testsTotal : sub.testsTotal = j.problem.tests.length
  failedTest : sub.failedTest = none
  executed : ∃ lang compile output outs, j.judge.languages.get j.job.language = some lang ∧
    Judge.Compiled j.judge lang compile output ∧
    executions j.transcript = compile ++ (j.problem.tests.zip outs).map
      (Judge.testExecution (j.judge.runSpec lang (requestFor j.job j.problem))) ∧
    List.Forall₂ (Judge.Passed j.problem.comparer) j.problem.tests outs

theorem allPassed_of_accepted {s : System} {id : String} {sub : Submission} {j : Judgement}
    (shows : Shows s id sub j) (accepted : sub.verdict = some .accepted) : AllPassed sub j := by
  obtain ⟨lang, known, executed⟩ := Judge.judge_executes j.follows
  have verdict : j.result.verdict = .accepted :=
    Option.some.inj (shows.verdict.symm.trans accepted)
  obtain ⟨all, failed, compile, output, outs, compiled, ran, passed⟩ := executed.accepted verdict
  have total := executed.testsTotal
  refine ⟨?_, ?_, ?_, lang, compile, output, outs, known, compiled, ran, passed⟩
  · rw [shows.testsDone, shows.testsTotal, all, total]
  · rw [shows.testsTotal, total]
    rfl
  · rw [shows.failedTest, failed]

/-- The same verdict, in all its parts. -/
structure SameVerdict (sub sub' : Submission) : Prop where
  problemVersion : sub.problemVersion = sub'.problemVersion
  verdict : sub.verdict = sub'.verdict
  timeMs : sub.timeMs = sub'.timeMs
  memoryKb : sub.memoryKb = sub'.memoryKb
  failedTest : sub.failedTest = sub'.failedTest
  compileOutput : sub.compileOutput = sub'.compileOutput
  tests : sub.tests = sub'.tests
  testsDone : sub.testsDone = sub'.testsDone
  testsTotal : sub.testsTotal = sub'.testsTotal

/-- **Authenticity of every stored verdict.** -/
theorem stored_verdicts_authentic {s : System} (reachable : system.Reachable s) :
    (∀ id sub, ShowsVerdict s id sub → ∃ j ∈ s.judged, Shows s id sub j ∧
      (sub.verdict = some .accepted → AllPassed sub j)) ∧
    ∀ (allows : Answers Call.Answer) (judge : Judge) (problems : ProblemSet) (s' : System),
      (∀ history request first second, allows history request first →
        allows history request second → first = second) →
      system.Reachable s' → Fixed judge problems s → Fixed judge problems s' →
      AnsweredBy allows s → AnsweredBy allows s' →
      ∀ id sub id' sub', ShowsVerdict s id sub → ShowsVerdict s' id' sub' →
        sub.problem = sub'.problem → sub.language = sub'.language →
        (s.queue.store.sources.get id).map Source.source =
          (s'.queue.store.sources.get id').map Source.source →
        SameVerdict sub sub' := by
  constructor
  · intro id sub shows
    obtain ⟨j, inside, shown⟩ := shows_of_reachable reachable shows
    exact ⟨j, inside, shown, allPassed_of_accepted shown⟩
  · intro allows judge problems s' unique reachable' fixed fixed' answered answered' id sub id' sub'
      shows shows' problem language source
    obtain ⟨j, inside, shown⟩ := shows_of_reachable reachable shows
    obtain ⟨j', inside', shown'⟩ := shows_of_reachable reachable' shows'
    rw [shown.problem, shown'.problem] at problem
    rw [shown.language, shown'.language] at language
    rw [shown.source, shown'.source] at source
    obtain ⟨problems, results⟩ := judged_alike unique fixed fixed' (answered j inside)
      (answered' j' inside') shown.loaded shown'.loaded problem language (Option.some.inj source)
    refine ⟨?_, ?_, ?_, ?_, ?_, ?_, ?_, ?_, ?_⟩
    · rw [shown.problemVersion, shown'.problemVersion, problems]
    · rw [shown.verdict, shown'.verdict, results]
    · rw [shown.timeMs, shown'.timeMs, results]
    · rw [shown.memoryKb, shown'.memoryKb, results]
    · rw [shown.failedTest, shown'.failedTest, results]
    · rw [shown.compileOutput, shown'.compileOutput, results]
    · rw [shown.tests, shown'.tests, results]
    · rw [shown.testsDone, shown'.testsDone, results]
    · rw [shown.testsTotal, shown'.testsTotal, results]

end Server

/-! ### Two runs -/

/-- A sandbox where every command prints the right answer. -/
def printsTwo : Answers Call.Answer := fun history request answer =>
  answer = sampleSandbox .ok "2\n" "" history request

set_option maxRecDepth 10000 in
/-- A submission is judged, at any time. -/
theorem sample_judged (t : Int64) : letI := plainHost
    ∃ (s : System) (sub : Submission), system.Reachable s ∧
      Fixed sampleJudge sampleSettings.problems s ∧ AnsweredBy printsTwo s ∧
      ShowsVerdict s "s1" sub ∧ sub.verdict = some .accepted ∧ sub.problem = "p" ∧
      sub.language = "python" ∧
      (s.queue.store.sources.get "s1").map Source.source = some "print(1)" := by
  let host := plainHost
  have run := (run_started sampleSettings).next (Step.insert (worldAt t) sampleSubmission)
  have run := run.next (Step.claim 0 (worldAt t) rfl)
  have run := run.next (Step.begin 0 rfl rfl)
  have run := run.next (Step.call 0 rfl rfl (by exact .ok ()))
  have run := run.next (Step.call 0 rfl rfl (by exact .ok ()))
  have run := run.next (Step.call 0 rfl rfl (by exact ()))
  have run := run.next (Step.heartbeat 0 (worldAt t) rfl rfl rfl rfl)
  have run := run.next (Step.beatFetch 0 (worldAt t) rfl rfl)
  have run := run.next (Step.beatPublish 0 rfl rfl)
  have run := run.next (Step.call 0 rfl rfl (by exact .ok ⟨.ok, utf8 "2\n", [], 10, 20, 3000⟩))
  have run := run.next (Step.call 0 rfl rfl (by exact ()))
  have run := run.next (Step.heartbeat 0 (worldAt t) rfl rfl rfl rfl)
  have run := run.next (Step.beatFetch 0 (worldAt t) rfl rfl)
  have run := run.next (Step.beatPublish 0 rfl rfl)
  have run := run.next (Step.call 0 rfl rfl (by exact .ok ()))
  have run := run.next (Step.returned 0 rfl rfl rfl rfl)
  have run := run.next (Step.store 0 (worldAt t) rfl rfl)
  refine ⟨_, _, ⟨_, run⟩, ?_, ?_, ⟨⟨worldAt t, rfl⟩, rfl, ?_⟩, rfl, rfl, rfl, rfl⟩
  · intro settings inside
    cases List.mem_singleton.mp inside
    exact ⟨rfl, rfl⟩
  · intro j inside
    cases List.mem_singleton.mp inside
    exact ⟨rfl, rfl, rfl, rfl, rfl, rfl, trivial⟩
  · exact fun same => by cases same

theorem stored_verdicts_authentic_sample : letI := plainHost
    ∃ (s s' : System) (sub sub' : Submission), ShowsVerdict s "s1" sub ∧
      (∃ j ∈ s.judged, Shows s "s1" sub j ∧ AllPassed sub j) ∧ ShowsVerdict s' "s1" sub' ∧
      SameVerdict sub sub' := by
  let host := plainHost
  obtain ⟨s, sub, reachable, fixed, answered, shows, accepted, problem, language, source⟩ :=
    sample_judged 0
  obtain ⟨s', sub', reachable', fixed', answered', shows', _, problem', language', source'⟩ :=
    sample_judged 1000
  obtain ⟨authentic, alike⟩ := stored_verdicts_authentic reachable
  obtain ⟨j, inside, shown, passed⟩ := authentic "s1" sub shows
  refine ⟨s, s', sub, sub', shows, ⟨j, inside, shown, passed accepted⟩, shows', ?_⟩
  have unique : ∀ history request first second, printsTwo history request first →
      printsTwo history request second → first = second := by
    rintro history request _ _ rfl rfl
    rfl
  exact alike printsTwo sampleJudge sampleSettings.problems s' unique reachable' fixed fixed'
    answered answered' "s1" sub "s1" sub' shows shows' (problem.trans problem'.symm)
    (language.trans language'.symm) (source.trans source'.symm)

end Codexec.Server
