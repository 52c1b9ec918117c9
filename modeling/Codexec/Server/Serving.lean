/-
**What the server is for.**

A submission is a question, and its verdict is the answer. Seen so (`System.cases`), a server with
its workers, heartbeats, sweeps, restarts and failing statements is a service that takes questions
and answers each at most once (`server_serves`): every action asks one question, answers some open
ones or changes nothing, and an answer is what `judge` returns for the question on the problem of a
process that was allowed to start, or none at all, which is what IE says.
-/

import Codexec.Server.Authentic
import Codexec.Library.Service

namespace Codexec.Server

open Codexec Codexec.Library Machine Program

/-- What is submitted. -/
structure Question where
  problem : String
  language : String
  source : String

/-- What is reported of a result. -/
structure Report where
  problemVersion : String
  verdict : Verdict
  timeMs : UInt64
  memoryKb : UInt64
  failedTest : Option String
  compileOutput : Option String
  tests : List TestResult
  testsTotal : Nat

/-- The report of a submission that is DONE; there is none of an internal error. -/
def Submission.report (self : Submission) : Option Report := do
  let verdict ← self.verdict.filter (· ≠ .internalError)
  let timeMs ← self.timeMs
  let memoryKb ← self.memoryKb
  let tests ← self.tests
  return ⟨self.problemVersion, verdict, timeMs, memoryKb, self.failedTest, self.compileOutput,
    tests, self.testsTotal⟩

/-- The report of a result. -/
def reportOf (problem : Problem) (result : JudgeResult) : Report where
  problemVersion := problem.version
  verdict := result.verdict
  timeMs := result.timeMs
  memoryKb := result.memoryKb
  failedTest := result.failedTest
  compileOutput := result.compileOutput
  tests := result.tests
  testsTotal := result.testsTotal

section Server

variable [Host]

/-- The request for a question. -/
def Question.request (self : Question) (problem : Problem) : JudgeRequest :=
  requestFor ⟨"", self.problem, self.language, self.source, 0⟩ problem

/-- An answer gives up, or reports what judging the question returns with such settings. -/
def Suits (valid : Settings → Prop) (question : Question) : Option Report → Prop
  | none => True
  | some report => ∃ settings problem transcript result, valid settings ∧
      settings.problems.get question.problem = some problem ∧
      Follows (settings.judge.judge (question.request problem) true) transcript
        (.pure (.ok result)) ∧
      report = reportOf problem result

/-- The case of a row with its source. -/
def caseOf (row : Row) (source : Source) : Case Question (Option Report) where
  question := ⟨row.problem, row.language, source.source⟩
  answer := if row.status = .done then some row.toSubmission.report else none

/-- The submissions as cases of a service. -/
def System.cases (s : System) : Service String Question (Option Report) := fun id =>
  (s.queue.store.submissions.get id).bind fun row =>
    (s.queue.store.sources.get id).map (caseOf row)

/-- The server, where every process starts with such settings. -/
def startedWith (valid : Settings → Prop) : Machine System Event where
  start s := system.start s ∧ valid s.settings
  step s event after := system.step s event after ∧
    ∀ settings world, event = .restart settings world → valid settings

section Cases

variable {s after : System} {valid : Settings → Prop}

theorem cases_of_row {id : String} {row : Row} {source : Source}
    (found : s.queue.store.submissions.get id = some row)
    (stored : s.queue.store.sources.get id = some source) :
    s.cases id = some (caseOf row source) := by
  rw [System.cases, found, stored]
  rfl

theorem cases_of_none {id : String} (absent : s.queue.store.submissions.get id = none) :
    s.cases id = none := by
  rw [System.cases, absent]
  rfl

theorem cases_congr (same : after.queue = s.queue) : after.cases = s.cases := by
  unfold System.cases
  rw [same]

/-- What is reported of a row that records a result. -/
theorem Records.report {j : Judgement} {row : Row} (records : Records j row) :
    row.toSubmission.report = some (reportOf j.problem j.result) := by
  have judged : Judged j.result := ⟨j.judge, _, true, j.transcript, j.follows⟩
  have proper : j.result.verdict ≠ .internalError := fun same => judged.verdict_ne (by
    rw [same]
    rfl)
  have verdict : row.toSubmission.verdict = some j.result.verdict := by
    show row.verdict.bind Verdict.fromCode = _
    rw [records.verdict]
    exact Verdict.fromCode_code _
  have timeMs : row.toSubmission.timeMs = some j.result.timeMs := by
    show row.timeMs.map Int64.toUInt64 = _
    rw [records.timeMs]
    rfl
  have memoryKb : row.toSubmission.memoryKb = some j.result.memoryKb := by
    show row.memoryKb.map Int64.toUInt64 = _
    rw [records.memoryKb]
    rfl
  have tests : row.toSubmission.tests = some j.result.tests := by
    show row.testResults.bind testsFromJson = _
    rw [records.testResults]
    exact testsFromJson_testsToJson _
  have failedTest : row.toSubmission.failedTest = j.result.failedTest := records.failedTest
  have compileOutput : row.toSubmission.compileOutput = j.result.compileOutput :=
    records.compileOutput
  have version : row.toSubmission.problemVersion = j.problem.version := records.problemVersion
  have total : row.toSubmission.testsTotal = j.result.testsTotal := records.testsTotal
  unfold Submission.report reportOf
  rw [verdict, timeMs, memoryKb, tests, failedTest, compileOutput, version, total,
    Option.filter_some_pos (by simpa using proper)]
  rfl

/-- **The answer to a submission that is DONE suits it.** -/
theorem suits_of_explained (sound : Sound s) (allowed : ∀ settings ∈ s.loaded, valid settings)
    {id : String} {row : Row} {source : Source}
    (found : s.queue.store.submissions.get id = some row)
    (stored : s.queue.store.sources.get id = some source) (explained : Explained s row) :
    Suits valid (caseOf row source).question row.toSubmission.report := by
  rcases explained with failed | ⟨j, inside, records⟩
  · have none : row.toSubmission.report = none := by
      have verdict : row.toSubmission.verdict = some .internalError := by
        show row.verdict.bind Verdict.fromCode = _
        rw [failed]
        rfl
      unfold Submission.report
      rw [verdict]
      rfl
    rw [none]
    trivial
  · rw [records.report]
    obtain ⟨holds, settings, loads, engine, problem⟩ := sound.judged j inside
    have own : j.job.id = id := records.id.symm.trans (Table.get_key found)
    obtain ⟨row', found', problem', language⟩ := holds.row
    rw [own, found] at found'
    cases found'
    have text := holds.source
    rw [own, stored] at text
    cases text
    refine ⟨settings, j.problem, j.transcript, j.result, allowed settings loads, ?_, ?_, rfl⟩
    · show settings.problems.get row.problem = _
      rw [problem', problem]
    · have request : Question.request (caseOf row ⟨id, j.job.source⟩).question j.problem =
          requestFor j.job j.problem := by
        unfold Question.request caseOf requestFor
        rw [language]
      rw [engine, request]
      exact j.follows

end Cases

/-! ### Every action -/

/-- What the server keeps. -/
structure KeepsCases (valid : Settings → Prop) (s : System) : Prop where
  sound : Sound s
  explained : ∀ id row, s.queue.store.submissions.get id = some row → row.status = .done →
    Explained s row
  sourced : Sourced s.queue.store
  loaded : ∀ settings ∈ s.loaded, valid settings

theorem Step.loads {s after : System} {event : Event} (step : Step s event after) :
    after.loaded = s.loaded ∨
      ∃ settings world, event = .restart settings world ∧ after.loaded = settings :: s.loaded := by
  cases step with
  | restart settings world _ => exact Or.inr ⟨settings, world, rfl, rfl⟩
  | _ => exact Or.inl rfl

theorem startedWith_invariant (valid : Settings → Prop) :
    (startedWith valid).Invariant (KeepsCases valid) where
  start := by
    rintro s ⟨initial, allowed⟩
    obtain ⟨sound, explained⟩ := explained_invariant.start s initial
    refine ⟨sound, explained, ?_, ?_⟩
    · obtain ⟨settings, rfl⟩ := initial
      intro id row found
      cases found
    · obtain ⟨settings, rfl⟩ := initial
      intro other inside
      rw [List.mem_singleton.mp inside]
      exact allowed
  step := by
    rintro s event after ⟨sound, explained, sourced, loaded⟩ ⟨step, restarts⟩
    obtain ⟨sound', explained'⟩ := explained_invariant.step s event after ⟨sound, explained⟩ step
    refine ⟨sound', explained', ?_, ?_⟩
    · rcases Step.calls sound step with same | ⟨op, same, permitted, -⟩
      · rw [same]
        exact sourced
      · exact sourced_invariant.step _ op _ sourced ⟨permitted, same⟩
    · intro settings inside
      rcases Step.loads step with same | ⟨started, world, label, same⟩
      · rw [same] at inside
        exact loaded settings inside
      · rw [same] at inside
        rcases List.mem_cons.mp inside with rfl | inside
        · exact restarts settings world label
        · exact loaded settings inside

omit [Host] in
theorem caseOf_live {row : Row} {source : Source} (live : row.status ≠ .done) :
    caseOf row source = { question := ⟨row.problem, row.language, source.source⟩ } := by
  rw [caseOf, if_neg live]

omit [Host] in
theorem caseOf_question {op : Op} {row next : Row} {source : Source} (moved : RowStep op row next) :
    (caseOf next source).question = ⟨row.problem, row.language, source.source⟩ := by
  rw [caseOf, moved.submitted.1, moved.submitted.2]

section Steps

variable {s after : System} {op : Op} {valid : Settings → Prop}

/-- An insertion asks a question. -/
theorem cases_of_inserted {world : World} {new : NewSubmission}
    (same : after.queue.store = op.after s.queue.store)
    (inserted : Store.Inserted s.queue.store world new (op.after s.queue.store)) :
    after.cases = Function.update s.cases world.newId
      (some { question := ⟨new.problem, new.language, new.source⟩ }) := by
  funext id
  unfold System.cases
  rw [same, inserted.row, inserted.source]
  by_cases own : world.newId = id
  · rw [if_pos own, if_pos own, ← own, Function.update_self]
    rfl
  · rw [if_neg own, if_neg own, Function.update_of_ne (Ne.symm own)]

/-- Any other call leaves every question, and the answers there are. -/
theorem cases_of_kept (sourced : Sourced s.queue.store)
    (same : after.queue.store = op.after s.queue.store)
    (sources : (op.after s.queue.store).sources = s.queue.store.sources) (id : String) :
    s.cases id = none ∧ after.cases id = none ∨
      ∃ row next source, s.queue.store.submissions.get id = some row ∧
        after.queue.store.submissions.get id = some next ∧
        after.queue.store.sources.get id = some source ∧ s.cases id = some (caseOf row source) ∧
        after.cases id = some (caseOf next source) ∧ RowStep op row next := by
  cases held : s.queue.store.submissions.get id with
  | none =>
    left
    refine ⟨cases_of_none held, cases_of_none ?_⟩
    cases found : after.queue.store.submissions.get id with
    | none => rfl
    | some next =>
      rw [same] at found
      obtain ⟨world, new, -, -, -, inserted⟩ := Op.row_new held found
      have stored := inserted.source world.newId
      rw [if_pos rfl, sources, inserted.unsourced] at stored
      cases stored
  | some row =>
    right
    obtain ⟨source, stored⟩ := sourced id row held
    obtain ⟨next, found, moved⟩ := op.row_cases held
    rw [← same] at found
    have stored' : after.queue.store.sources.get id = some source := by
      rw [same, sources]
      exact stored
    exact ⟨row, next, source, rfl, found, stored', cases_of_row held stored,
      cases_of_row found stored', moved⟩

end Steps

/-- The answers that an action brings to open questions. -/
def newAnswers (s after : System) (id : String) : Option (Option Report) :=
  if (s.cases id).any (·.answer.isNone) then (after.cases id).bind (·.answer) else none

/-- **A call that inserts nothing answers open questions**, if any. -/
theorem answers_of_kept {s after : System} {op : Op} {valid : Settings → Prop}
    (sourced : Sourced s.queue.store) (same : after.queue.store = op.after s.queue.store)
    (sources : (op.after s.queue.store).sources = s.queue.store.sources)
    (serves : KeepsCases valid after) :
    Service.Step (Suits valid) s.cases (.answer (newAnswers s after)) after.cases := by
  have each := cases_of_kept sourced same sources
  have meets : ∀ id answer, newAnswers s after id = some answer →
      ∃ question, s.cases id = some { question } ∧ Suits valid question answer := by
    intro id answer told
    rcases each id with ⟨none, -⟩ | ⟨row, next, source, -, found, stored, case, case', moved⟩
    · rw [newAnswers, none] at told
      cases told
    · rw [newAnswers, case, case'] at told
      split at told
      · next unanswered =>
        have live : row.status ≠ .done := fun done => by
          simp [caseOf, done] at unanswered
        have done : next.status = .done := by
          by_contra live'
          simp [caseOf, live'] at told
        have report : next.toSubmission.report = answer := by
          simpa [caseOf, done] using told
        have suits := suits_of_explained serves.sound serves.loaded found stored
          (serves.explained id next found done)
        rw [report, caseOf_question moved] at suits
        exact ⟨_, by rw [case, caseOf_live live], suits⟩
      · cases told
  have result : after.cases = s.cases.answered (newAnswers s after) := by
    funext id
    unfold Service.answered
    rcases each id with ⟨none, none'⟩ | ⟨row, next, source, -, -, -, case, case', moved⟩
    · rw [none, none']
      rfl
    · rw [newAnswers, case, case', Option.map_some]
      by_cases done : row.status = .done
      · rw [moved.of_done done]
        simp [caseOf, done]
      · have question : (caseOf next source).question =
            ⟨row.problem, row.language, source.source⟩ := caseOf_question moved
        rw [caseOf_live done, ← question]
        rfl
  rw [result]
  exact .answer meets

/-- **Every action asks one question, answers open ones, or changes nothing.** -/
theorem startedWith_refines (valid : Settings → Prop) :
    Refinement (startedWith valid) (Service.machine (Suits valid)) System.cases
      (KeepsCases valid) where
  start := by
    rintro s ⟨⟨settings, rfl⟩, -⟩
    rfl
  step := by
    intro s event after serves step
    have serves' := (startedWith_invariant valid).step s event after serves step
    rcases Step.calls serves.sound step.1 with same | ⟨op, same, permitted, returned⟩
    · exact Or.inl (cases_congr same)
    · right
      have store : after.queue.store = op.after s.queue.store := by
        rw [same]
        rfl
      rcases op.sources_cases s.queue.store with sources | ⟨world, new, rfl, inserted⟩
      · exact ⟨_, answers_of_kept serves.sourced store sources serves'⟩
      · refine ⟨.pose world.newId ⟨new.problem, new.language, new.source⟩, ?_⟩
        rw [cases_of_inserted store inserted]
        exact .pose _ (cases_of_none inserted.fresh)

/-- What a client reads is what the service says. -/
structure Reflects (s : System) (id : String) (sub : Submission) : Prop where
  case : ∃ case, s.cases id = some case ∧ case.question.problem = sub.problem ∧
    case.question.language = sub.language ∧
    case.answer = if sub.status = .done then some sub.report else none

/-- **The server is a service** that answers each question at most once and as `judge` does. A run
of its actions is one of the service, from any state it reaches; so nothing that was submitted or
answered is lost or changed, every answer suits its question, and what `get` reads is what the
service says. -/
theorem server_serves (valid : Settings → Prop) {s after : System} {own : Event → Prop}
    (reachable : (startedWith valid).Reachable s) (leads : (startedWith valid).Leads own s after) :
    (Service.machine (Suits valid)).Leads (fun _ => True) s.cases after.cases ∧
      Service.Later s.cases after.cases ∧ Service.Permitted (Suits valid) after.cases ∧
      ∀ world id sub, after.queue.store.get world id = .ok (some sub) → Reflects after id sub := by
  have invariant := startedWith_invariant valid
  have refines := startedWith_refines valid
  have serves := invariant.of_reachable reachable
  have goesOn := refines.leads invariant leads serves
  have reached := refines.reachable invariant (leads.reachable reachable)
  refine ⟨goesOn, Service.later_of_leads goesOn,
    Service.permitted_invariant.of_reachable reached, ?_⟩
  intro world id sub got
  obtain ⟨row, found, rfl⟩ := Store.row_of_get got
  obtain ⟨source, stored⟩ := (leads.keeps invariant serves).sourced id row found
  exact ⟨caseOf row source, cases_of_row found stored, rfl, rfl, rfl⟩

/-- Any run of the server is one where every process may start. -/
theorem startedWith_reachable {s : System} (reachable : system.Reachable s) :
    (startedWith fun _ => True).Reachable s := by
  obtain ⟨steps, run⟩ := reachable
  induction run with
  | start initial => exact ⟨[], .start ⟨initial, trivial⟩⟩
  | next _ step ih =>
    obtain ⟨steps, run⟩ := ih
    exact ⟨_, run.next ⟨step, fun _ _ _ => trivial⟩⟩

end Server

/-- From its start to a verdict, the server asks a question and answers it. -/
theorem server_serves_sample : letI := plainHost
    ∃ s after : System, s.cases "s1" = none ∧
      (Service.machine (Suits fun _ => True)).Leads (fun _ => True) s.cases after.cases ∧
      Service.Permitted (Suits fun _ => True) after.cases ∧
      ∃ case, after.cases "s1" = some case ∧ case.question.problem = "p" ∧
        case.answer.isSome = true := by
  let host := plainHost
  obtain ⟨after, sub, reachable, -, -, ⟨⟨world, got⟩, done, -⟩, -, problem, -, -⟩ := sample_judged 0
  obtain ⟨steps, run⟩ := startedWith_reachable reachable
  obtain ⟨s, starts, leads⟩ := run.leads
  obtain ⟨goesOn, -, permitted, reads⟩ := server_serves (fun _ => True) ⟨[], .start starts⟩ leads
  obtain ⟨case, here, question, -, answer⟩ := (reads world "s1" sub got).case
  refine ⟨s, after, ?_, goesOn, permitted, case, here, question.trans problem, ?_⟩
  · obtain ⟨⟨settings, rfl⟩, -⟩ := starts
    rfl
  · rw [answer, if_pos done]
    rfl

end Codexec.Server
