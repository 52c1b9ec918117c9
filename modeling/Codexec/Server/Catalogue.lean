/-
**Hidden tests stay hidden from runs and from the catalogue.**

A test whose name is not a sample is hidden: two problem sets are `Alike` if they differ only in
hidden tests, and hence in versions. The catalogue and `create_run` read samples, names and numbers
of tests only, so on alike sets every request gets the same reply, up to versions, and the lane goes
through the same states (`hidden_tests_never_seen`). The jobs of the lane are those of `create_run`
(`asked_of_run`): their tests are samples, or the one custom test, which has no answer.
-/

import Codexec.Server.Http
import Codexec.Judge.Execution

namespace Codexec.Server

open Codexec Codexec.Library Program

/-! ### Problem sets that differ in hidden tests -/

/-- The same name, and the same test if the name is a sample. -/
structure SameSample (sampleNames : List String) (test test' : TestCase) : Prop where
  name : test'.name = test.name
  shown : sampleNames.contains test.name = true → test' = test

/-- Two problems that differ at most in hidden tests and in the version. -/
structure AlikeProblem (p p' : Problem) : Prop where
  slug : p'.slug = p.slug
  title : p'.title = p.title
  difficulty : p'.difficulty = p.difficulty
  tags : p'.tags = p.tags
  timeLimitMs : p'.timeLimitMs = p.timeLimitMs
  memoryLimitKb : p'.memoryLimitKb = p.memoryLimitKb
  comparer : p'.comparer = p.comparer
  showFailedInput : p'.showFailedInput = p.showFailedInput
  statement : p'.statement = p.statement
  sampleNames : p'.sampleNames = p.sampleNames
  tests : List.Forall₂ (SameSample p.sampleNames) p.tests p'.tests

/-- Two problem sets with the same problems, up to hidden tests and versions. -/
def Alike (problems problems' : ProblemSet) : Prop :=
  List.Forall₂ AlikeProblem problems.rows problems'.rows

theorem filter_samples {sampleNames : List String} {tests tests' : List TestCase}
    (same : List.Forall₂ (SameSample sampleNames) tests tests') :
    (tests'.filter fun test => sampleNames.contains test.name) =
      tests.filter fun test => sampleNames.contains test.name := by
  induction same with
  | nil => rfl
  | @cons test test' _ _ first _ ih =>
    rw [List.filter_cons, List.filter_cons, first.name, ih]
    by_cases shown : sampleNames.contains test.name = true
    · rw [if_pos shown, if_pos shown, first.shown shown]
    · rw [if_neg shown, if_neg shown]

namespace AlikeProblem

variable {p p' : Problem} (alike : AlikeProblem p p')

include alike

/-- **The samples are the same.** -/
theorem samples : p'.samples = p.samples := by
  unfold Problem.samples
  rw [alike.sampleNames]
  exact filter_samples alike.tests

theorem summary : summary p' = summary p := by
  unfold Server.summary
  rw [alike.slug, alike.title, alike.difficulty, alike.tags]

theorem testsOfRun (stdin : Option String) : testsOfRun stdin (some p') = testsOfRun stdin (some p) := by
  cases stdin with
  | some input => rfl
  | none =>
    show (if !p'.sampleNames.isEmpty then p'.samples else custom []) =
      if !p.sampleNames.isEmpty then p.samples else custom []
    rw [alike.sampleNames, alike.samples]

end AlikeProblem

/-- The page of a problem, without its version. -/
def ProblemPage.withoutVersion (page : ProblemPage) : ProblemPage := { page with version := "" }

theorem AlikeProblem.page {p p' : Problem} (alike : AlikeProblem p p') :
    (page p').withoutVersion = (page p).withoutVersion := by
  unfold Server.page ProblemPage.withoutVersion
  rw [alike.slug, alike.title, alike.difficulty, alike.tags, alike.timeLimitMs,
    alike.memoryLimitKb, alike.statement, alike.samples, alike.tests.length_eq]

/-- What a process would load with other problems. -/
def Settings.serving (settings : Settings) (problems : ProblemSet) : Settings :=
  { settings with problems := problems }

section Handlers

variable [Host] {settings : Settings} {problems : ProblemSet}
  (alike : Alike settings.problems problems)

include alike

omit [Host] in
theorem Alike.get (slug : String) :
    Option.Rel AlikeProblem (settings.problems.get slug) (problems.get slug) :=
  Table.get_related alike (fun _ _ same => same.slug) slug

omit [Host] in
theorem listProblems_alike : listProblems (settings.serving problems) = listProblems settings := by
  have rows : List.Forall₂ AlikeProblem settings.problems.rows problems.rows := alike
  show problems.rows.map summary = settings.problems.rows.map summary
  generalize settings.problems.rows = before, problems.rows = after at rows
  induction rows with
  | nil => rfl
  | cons first _ ih => rw [List.map_cons, List.map_cons, first.summary, ih]

omit [Host] in
theorem getProblem_alike (slug : String) :
    (getProblem (settings.serving problems) slug).map ProblemPage.withoutVersion =
      (getProblem settings slug).map ProblemPage.withoutVersion := by
  unfold getProblem
  show ((orNotFound "problem" (problems.get slug)).map page).map _ = _
  have same := Alike.get alike slug
  generalize settings.problems.get slug = found, problems.get slug = found' at same
  cases same with
  | none => rfl
  | some same => exact congrArg Except.ok same.page

/-- **A run gets the same job.** -/
theorem newRun_alike (maxSourceBytes : Nat) (body : CreateRun) :
    newRun (settings.serving problems) maxSourceBytes body =
      newRun settings maxSourceBytes body := by
  unfold newRun
  show checkSource settings maxSourceBytes body.language body.source >>= _ = _
  refine congrArg _ (funext fun _ => ?_)
  dsimp only
  by_cases long : (body.stdin.any fun s => decide (maxStdinBytes < (utf8 s).length)) = true
  · rw [if_pos long, if_pos long]
    rfl
  · rw [if_neg long, if_neg long]
    cases body.problem with
    | none => rfl
    | some slug =>
      have same := Alike.get alike slug
      show (orNotFound "problem" (problems.get slug)).map some >>= _ =
        (orNotFound "problem" (settings.problems.get slug)).map some >>= _
      generalize settings.problems.get slug = found, problems.get slug = found' at same
      cases same with
      | none => rfl
      | @some p p' same =>
        show (Except.ok _ : Except ApiError RunJob) = Except.ok _
        simp only [Option.map_some, Option.getD_some, same.testsOfRun, same.timeLimitMs,
          same.memoryLimitKb, same.comparer]

end Handlers

/-! ### The catalogue and the lane -/

section Site

variable [Host]

/-- The outcome of `handle_run`, in a sandbox. -/
def handleRun (judge : Judge) (sandbox : Environment Call.Answer) (job : RunJob) :
    Except String JudgeResult :=
  (judge.result (requestOfRun job) false sandbox).mapError errorText

/-- The runs of a process, and the jobs that workers hold. -/
structure Site where
  runs : RunStore
  held : List RunJob

/-- A request about problems or runs, or what workers and the sweeper do with runs. -/
inductive Action
  | listProblems
  | getProblem (slug : String)
  | createRun (body : CreateRun) (newId : String) (now : Int64) (instant : Nat)
  | getRun (id : String)
  | pop
  /-- The worker with job number `n` is done, in this sandbox. -/
  | handled (n : Nat) (sandbox : Environment Call.Answer)
  | prune (clock : String → Nat)

inductive Response
  | nothing
  | problems (reply : List ProblemSummary)
  | problem (reply : Except ApiError ProblemPage)
  | created (reply : Except ApiError (Accepted RunRecord))
  | run (reply : Except ApiError RunRecord)

omit [Host] in
def Response.withoutVersion : Response → Response
  | .problem reply => .problem (reply.map ProblemPage.withoutVersion)
  | reply => reply

namespace Site

/-- All jobs that wait or are held. -/
def jobs (site : Site) : List RunJob := site.runs.queue ++ site.held

/-- One action. -/
def act (settings : Settings) (maxSourceBytes : Nat) (site : Site) : Action → Response × Site
  | .listProblems => (.problems (listProblems settings), site)
  | .getProblem slug => (.problem (getProblem settings slug), site)
  | .createRun body newId now instant =>
    let (reply, runs) := createRun settings maxSourceBytes body newId now instant site.runs
    (.created reply, { site with runs := runs })
  | .getRun id => (.run (getRun site.runs id), site)
  | .pop =>
    let (job, runs) := site.runs.pop
    (.nothing, ⟨runs, site.held ++ job.toList⟩)
  | .handled n sandbox =>
    match site.held[n]? with
    | none => (.nothing, site)
    | some job => (.nothing,
        ⟨site.runs.complete job.id (handleRun settings.judge sandbox job), site.held.eraseIdx n⟩)
  | .prune clock => (.nothing, { site with runs := (site.runs.prune clock).2 })

/-- The replies to a sequence of actions, and the site after them. -/
def run (settings : Settings) (maxSourceBytes : Nat) : Site → List Action → List Response × Site
  | site, [] => ([], site)
  | site, action :: rest =>
    let (reply, next) := act settings maxSourceBytes site action
    let (replies, last) := run settings maxSourceBytes next rest
    (reply :: replies, last)

section Alike

variable {settings : Settings} {problems : ProblemSet} (alike : Alike settings.problems problems)
  (maxSourceBytes : Nat)

include alike

/-- **One action** has the same reply and the same effect. -/
theorem act_alike (site : Site) (action : Action) :
    (act (settings.serving problems) maxSourceBytes site action).1.withoutVersion =
        (act settings maxSourceBytes site action).1.withoutVersion ∧
      (act (settings.serving problems) maxSourceBytes site action).2 =
        (act settings maxSourceBytes site action).2 := by
  cases action with
  | listProblems => exact ⟨congrArg Response.problems (listProblems_alike alike), rfl⟩
  | getProblem slug => exact ⟨congrArg Response.problem (getProblem_alike alike slug), rfl⟩
  | createRun body newId now instant =>
    have same : createRun (settings.serving problems) maxSourceBytes body newId now instant
        site.runs = createRun settings maxSourceBytes body newId now instant site.runs := by
      unfold createRun
      rw [newRun_alike alike]
    simp only [act, same]
    exact ⟨trivial, trivial⟩
  | _ => exact ⟨rfl, rfl⟩

theorem run_alike (site : Site) (actions : List Action) :
    (run (settings.serving problems) maxSourceBytes site actions).1.map Response.withoutVersion =
        (run settings maxSourceBytes site actions).1.map Response.withoutVersion ∧
      (run (settings.serving problems) maxSourceBytes site actions).2 =
        (run settings maxSourceBytes site actions).2 := by
  induction actions generalizing site with
  | nil => exact ⟨rfl, rfl⟩
  | cons action rest ih =>
    obtain ⟨reply, next⟩ := act_alike alike maxSourceBytes site action
    obtain ⟨replies, last⟩ := ih (act settings maxSourceBytes site action).2
    simp only [run, List.map_cons, reply, next, replies, last]
    exact ⟨trivial, trivial⟩

end Alike

/-! ### The jobs of the lane -/

/-- The job is the one that `create_run` made for this request. -/
def Asked (settings : Settings) (maxSourceBytes : Nat) (body : CreateRun) (job : RunJob) : Prop :=
  ∃ made, newRun settings maxSourceBytes body = .ok made ∧ job = { made with id := job.id }

section Asked

variable {settings : Settings} {maxSourceBytes : Nat} {site : Site}

/-- A run that is accepted adds its job. -/
theorem createRun_queue (settings : Settings) (maxSourceBytes : Nat) (body : CreateRun)
    (newId : String) (now : Int64) (instant : Nat) (runs : RunStore) :
    (createRun settings maxSourceBytes body newId now instant runs).2 = runs ∨
      ∃ new, newRun settings maxSourceBytes body = .ok new ∧
        (createRun settings maxSourceBytes body newId now instant runs).2.queue =
          runs.queue ++ [{ new with id := newId }] := by
  unfold createRun
  cases made : newRun settings maxSourceBytes body with
  | error e => exact Or.inl rfl
  | ok new =>
    by_cases room : runs.queue.length < runs.capacity
    · right
      refine ⟨new, rfl, ?_⟩
      simp only [runs.submit_of_room room]
    · left
      simp only [runs.submit_of_full (Nat.le_of_not_lt room)]

theorem mem_act {action : Action} {job : RunJob}
    (inside : job ∈ (act settings maxSourceBytes site action).2.jobs) :
    job ∈ site.jobs ∨ ∃ body, Asked settings maxSourceBytes body job := by
  cases action with
  | createRun body newId now instant =>
    change job ∈ (createRun settings maxSourceBytes body newId now instant site.runs).2.queue ++
      site.held at inside
    rcases createRun_queue settings maxSourceBytes body newId now instant site.runs with
      same | ⟨new, made, queue⟩
    · rw [same] at inside
      exact Or.inl inside
    · rw [queue, List.append_assoc] at inside
      rcases List.mem_append.mp inside with queued | rest
      · exact Or.inl (List.mem_append_left _ queued)
      · rcases List.mem_cons.mp rest with rfl | held
        · exact Or.inr ⟨body, new, made, rfl⟩
        · exact Or.inl (List.mem_append_right _ held)
  | pop =>
    left
    change job ∈ site.runs.pop.2.queue ++ (site.held ++ site.runs.pop.1.toList) at inside
    unfold jobs
    unfold RunStore.pop at inside
    cases queue : site.runs.queue with
    | nil =>
      rw [queue] at inside
      simpa [queue] using inside
    | cons first rest =>
      rw [queue] at inside
      simp only [Option.toList_some, List.mem_append, List.mem_cons, List.not_mem_nil,
        or_false] at inside ⊢
      tauto
  | handled n sandbox =>
    left
    cases here : site.held[n]? with
    | none =>
      simp only [act, here] at inside
      exact inside
    | some done =>
      simp only [act, here] at inside
      rcases List.mem_append.mp inside with queued | held
      · exact List.mem_append_left _ queued
      · exact List.mem_append_right _ (List.mem_of_mem_eraseIdx held)
  | _ => exact Or.inl inside

/-- **Every job of the lane was asked for.** -/
theorem asked_of_run {actions : List Action} {job : RunJob}
    (asked : ∀ job ∈ site.jobs, ∃ body, Asked settings maxSourceBytes body job)
    (inside : job ∈ (run settings maxSourceBytes site actions).2.jobs) :
    ∃ body, Asked settings maxSourceBytes body job := by
  induction actions generalizing site with
  | nil => exact asked job inside
  | cons action rest ih =>
    refine ih (fun other member => ?_) inside
    rcases mem_act member with old | new
    · exact asked other old
    · exact new

/-- **The tests of a job** are the samples of the problem it names, or one without an answer. -/
theorem tests_of_asked {body : CreateRun} {job : RunJob}
    (asked : Asked settings maxSourceBytes body job) :
    (∃ slug p, body.stdin = none ∧ body.problem = some slug ∧
      settings.problems.get slug = some p ∧ job.tests = p.samples) ∨
    ∃ input, job.tests = [⟨"custom", input, none⟩] := by
  obtain ⟨made, new, same⟩ := asked
  rw [show job.tests = made.tests by rw [same]]
  unfold newRun at new
  obtain ⟨_, -, new⟩ := Store.of_bind_eq_ok new
  dsimp only at new
  by_cases long : (body.stdin.any fun s => decide (maxStdinBytes < (utf8 s).length)) = true
  · rw [if_pos long] at new
    cases new
  · rw [if_neg long] at new
    cases asked : body.problem with
    | none =>
      rw [asked] at new
      cases new
      right
      cases stdin : body.stdin with
      | some input => exact ⟨utf8 input, rfl⟩
      | none => exact ⟨[], rfl⟩
    | some slug =>
      rw [asked] at new
      obtain ⟨problem, found, new⟩ := Store.of_bind_eq_ok new
      cases new
      cases stored : settings.problems.get slug with
      | none =>
        rw [stored] at found
        cases found
      | some p =>
        rw [stored] at found
        cases found
        cases stdin : body.stdin with
        | some input => exact Or.inr ⟨utf8 input, rfl⟩
        | none =>
          by_cases unsampled : p.sampleNames.isEmpty = true
          · right
            refine ⟨[], ?_⟩
            simp [testsOfRun, unsampled, custom]
          · left
            refine ⟨slug, p, rfl, rfl, stored, ?_⟩
            simp [testsOfRun, unsampled]

end Asked

end Site

/-- **Runs and the catalogue never see hidden tests.** -/
theorem hidden_tests_never_seen {settings : Settings} {problems : ProblemSet}
    (alike : Alike settings.problems problems) (maxSourceBytes : Nat) :
    listProblems (settings.serving problems) = listProblems settings ∧
    (∀ slug, (getProblem (settings.serving problems) slug).map ProblemPage.withoutVersion =
      (getProblem settings slug).map ProblemPage.withoutVersion) ∧
    (∀ body, newRun (settings.serving problems) maxSourceBytes body =
      newRun settings maxSourceBytes body) ∧
    (∀ site actions,
      (Site.run (settings.serving problems) maxSourceBytes site actions).1.map
          Response.withoutVersion =
        (Site.run settings maxSourceBytes site actions).1.map Response.withoutVersion ∧
      (Site.run (settings.serving problems) maxSourceBytes site actions).2 =
        (Site.run settings maxSourceBytes site actions).2) ∧
    ∀ capacity ttl actions,
      ∀ job ∈ (Site.run settings maxSourceBytes ⟨.new capacity ttl, []⟩ actions).2.jobs,
        (∃ body, Site.Asked settings maxSourceBytes body job ∧
          ((∃ slug p, body.stdin = none ∧ body.problem = some slug ∧
            settings.problems.get slug = some p ∧ job.tests = p.samples) ∨
          ∃ input, job.tests = [⟨"custom", input, none⟩])) ∧
        ∀ lang transcript rest, settings.judge.languages.get job.language = some lang →
          Follows (settings.judge.judge (requestOfRun job) false) transcript rest →
            ∀ exchange ∈ transcript,
              settings.judge.Executes lang (requestOfRun job) exchange.1 := by
  refine ⟨listProblems_alike alike, getProblem_alike alike, newRun_alike alike maxSourceBytes,
    Site.run_alike alike maxSourceBytes, fun capacity ttl actions job inside => ⟨?_, ?_⟩⟩
  · have none : ∀ job ∈ (⟨.new capacity ttl, []⟩ : Site).jobs,
        ∃ body, Site.Asked settings maxSourceBytes body job :=
      fun job member => absurd member List.not_mem_nil
    obtain ⟨body, asked⟩ := Site.asked_of_run none inside
    exact ⟨body, asked, Site.tests_of_asked asked⟩
  · intro lang transcript rest known follows
    have known : settings.judge.languages.get (requestOfRun job).language = some lang := known
    exact ((Judge.judge_allCalls known).of_follows follows).1

end Site

/-! ### Two problem sets -/

theorem pair_loaded {input answer : Bytes} (short : input.length < 2 ^ 64)
    (short' : answer.length < 2 ^ 64) :
    LoadedTests [sampleTest "2\n", ⟨"02", input, some answer⟩] where
  nonempty := List.cons_ne_nil _ _
  sorted := by
    show ["01", "02"].Pairwise (· < ·)
    decide
  answered := by simp [sampleTest]
  named := by simp [sampleTest]
  small := by
    intro test inside
    rcases List.mem_cons.mp inside with rfl | inside
    · decide
    · rw [List.mem_singleton.mp inside]
      exact ⟨short, short'⟩

/-- A problem with a sample and a hidden test. -/
def sampled (input answer : Bytes) (version : String) (short : input.length < 2 ^ 64)
    (short' : answer.length < 2 ^ 64) : Problem :=
  { sampleProblem with
    tests := [sampleTest "2\n", ⟨"02", input, some answer⟩]
    sampleNames := ["01"]
    version := version
    loaded := pair_loaded short short' }

def sampledSettings : Settings :=
  { sampleSettings with
    problems := ⟨[sampled (utf8 "5\n") (utf8 "10\n") "v1" (by decide) (by decide)],
      List.nodup_singleton _⟩ }

/-- The same, with another hidden test. -/
def otherProblems : ProblemSet :=
  ⟨[sampled (utf8 "7\n") (utf8 "14\n") "v2" (by decide) (by decide)], List.nodup_singleton _⟩

/-- Two such problems are alike. -/
theorem alike_sampled {input answer input' answer' : Bytes} (version version' : String)
    (short : input.length < 2 ^ 64) (short' : answer.length < 2 ^ 64)
    (other : input'.length < 2 ^ 64) (other' : answer'.length < 2 ^ 64) :
    AlikeProblem (sampled input answer version short short')
      (sampled input' answer' version' other other') := by
  have first : SameSample ["01"] (sampleTest "2\n") (sampleTest "2\n") := ⟨rfl, fun _ => rfl⟩
  have second : SameSample ["01"] ⟨"02", input, some answer⟩ ⟨"02", input', some answer'⟩ :=
    ⟨rfl, fun shown => absurd shown (show ¬ ["01"].contains "02" = true by decide)⟩
  exact ⟨rfl, rfl, rfl, rfl, rfl, rfl, rfl, rfl, rfl, rfl, .cons first (.cons second .nil)⟩

theorem sampled_alike : Alike sampledSettings.problems otherProblems :=
  .cons (alike_sampled "v1" "v2" _ _ _ _) .nil

/-- A run of the samples. -/
def samplesRun : CreateRun := ⟨"python", "src", none, some "p"⟩

theorem made_of_samples : letI := plainHost
    newRun sampledSettings 100 samplesRun =
      .ok ⟨"", "python", "src", [sampleTest "2\n"], 1000, 262144, .lines⟩ := rfl

/-- A client asks for a run of the samples, a worker judges it, and the client asks for its
outcome. -/
def samplesActions : List Action :=
  [.createRun samplesRun "r" 0 0, .pop, .handled 0 (sampleSandbox .ok "2\n" ""), .getRun "r"]

/-- The clients of two servers, whose hidden tests differ, see the same outcome of the same run. -/
theorem hidden_tests_never_seen_sample : letI := plainHost
    let seen := fun settings =>
      (Site.run settings 100 ⟨.new 256 600, []⟩ samplesActions).1.map Response.withoutVersion
    listProblems (sampledSettings.serving otherProblems) = listProblems sampledSettings ∧
      newRun (sampledSettings.serving otherProblems) 100 samplesRun =
        .ok ⟨"", "python", "src", [sampleTest "2\n"], 1000, 262144, .lines⟩ ∧
      seen (sampledSettings.serving otherProblems) = seen sampledSettings ∧
      (∃ record, (seen sampledSettings).getLast? = some (.run (.ok record)) ∧
        record.status = .done) ∧
      ∃ job ∈ (Site.run sampledSettings 100 ⟨.new 256 600, []⟩
          [.createRun samplesRun "r" 0 0]).2.jobs,
        ∀ exchange ∈ Program.transcript (sampleSandbox .ok "2\n" "") []
          (sampleJudge.judge (requestOfRun job) false),
            sampleJudge.Executes python (requestOfRun job) exchange.1 := by
  let host := plainHost
  obtain ⟨list, -, job, replies, jobs⟩ := hidden_tests_never_seen sampled_alike 100
  refine ⟨list, (job samplesRun).trans made_of_samples, (replies _ samplesActions).1, ⟨_, rfl, rfl⟩,
    _, List.mem_cons_self, ?_⟩
  exact (jobs 256 600 [.createRun samplesRun "r" 0 0] _ List.mem_cons_self).2 python _ _ rfl
    (follows_transcript (sampleSandbox .ok "2\n" "") [] _)

end Codexec.Server
