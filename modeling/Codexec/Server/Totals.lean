/-
**The number of tests of a row.**

A row is inserted with the number of tests of its problem, and every report about the tests and every
result carries this number again. Only for the compile step the heartbeat makes up its own: it
records `tests_total = 0`, and a submission that is given up afterwards keeps it. So over one set of
problems the rows show the right number, in all states of a run, exactly if no compile step was
recorded (`totals_kept_iff`).
-/

import Codexec.Server.Working
import Codexec.Server.Http

namespace Codexec.Server

open Codexec Codexec.Library Machine Program

/-- The row shows the number of tests of its problem. -/
def Row.Total (problems : ProblemSet) (row : Row) : Prop :=
  ∃ problem, problems.get row.problem = some problem ∧ row.testsTotal = problem.tests.length

section Server

variable [Host]

/-- What is stored was accepted by `create_submission`, and a new process loads the same problems. -/
def Serves (problems : ProblemSet) (s : System) : Event → Prop
  | .insert _ new => ∃ maxSourceBytes header body,
      newSubmission s.settings maxSourceBytes header body = .ok new
  | .restart settings _ => settings.problems = problems
  | _ => True

/-- The server over one set of problems. -/
def serving (problems : ProblemSet) : Machine System Event where
  start s := system.start s ∧ s.settings.problems = problems
  step s event after := Serves problems s event ∧ Step s event after

/-- Every row shows the number of tests of its problem. -/
def Totals (problems : ProblemSet) (s : System) : Prop :=
  ∀ id row, s.queue.store.submissions.get id = some row → row.Total problems

/-- The heartbeat records the compile step of the current attempt. -/
def RecordsCompiling (s : System) : Event → Prop
  | .heartbeat slot world => world.fault 0 = none ∧ ∃ run later row,
      s.workers slot = .judging run ∧ run.channel = .compiling :: later ∧
        s.queue.store.submissions.get run.job.id = some row ∧
          row.attempt = run.job.attempt.toNat ∧ row.status.inFlight = true
  | _ => False

section Steps

variable {problems : ProblemSet} {s after : System} {event : Event}

theorem newSubmission_total {settings : Settings} {maxSourceBytes : Nat} {header : Option Bytes}
    {body : CreateSubmission} {new : NewSubmission}
    (made : newSubmission settings maxSourceBytes header body = .ok new) (world : World) :
    (queuedRow world new).Total settings.problems := by
  unfold newSubmission at made
  obtain ⟨problem, found, made⟩ := Store.of_bind_eq_ok made
  obtain ⟨_, -, made⟩ := Store.of_bind_eq_ok made
  cases made
  unfold orNotFound at found
  split at found
  · next stored =>
    cases found
    refine ⟨problem, ?_, rfl⟩
    show settings.problems.get problem.slug = _
    rw [Table.get_key stored]
    exact stored
  · cases found

/-- **What an action writes into a row**: the right number, unless it records a compile step. -/
theorem total_written (sound : Sound s) (knows : ∀ slot, (s.workers slot).Knows s.settings)
    {op : Op} (performs : Performs s event op) {row next : Row}
    (found : s.queue.store.submissions.get row.id = some row)
    (found' : (op.after s.queue.store).submissions.get row.id = some next)
    (total : row.Total s.settings.problems) :
    next.Total s.settings.problems ∨ RecordsCompiling s event := by
  obtain ⟨next', held, moved⟩ := op.row_cases found
  cases found'.symm.trans held
  cases moved with
  | @progressed world token status testsDone testsTotal leaseMs _ key own flying =>
    obtain ⟨slot, run, report, later, rfl, here, received, rfl, recorded⟩ := performs.of_progress
    have id : row.id = run.job.id := key
    rw [id] at found found'
    cases report with
    | compiling =>
      by_cases works : world.fault 0 = none
      · exact Or.inr ⟨works, run, later, row, here, received, found, own, flying⟩
      · -- A heartbeat that is refused has changed nothing.
        have same : (Op.progress world run.job.token status testsDone testsTotal leaseMs).after
            s.queue.store = s.queue.store := Store.execute_of_fault works _ _ _
        rw [same] at found'
        rw [← Option.some.inj (found.symm.trans found')]
        exact Or.inl total
    | running done all =>
      left
      have problem : row.problem = run.job.problem := sound.problem (by rw [here]; rfl) found
      have known := knows slot
      rw [here] at known
      have fits := known.2.fits (.running done all) (by rw [received]; exact List.mem_cons_self)
      have number : testsTotal = all := congrArg (fun written => written.2.2) recorded
      exact ⟨run.problem, (congrArg s.settings.problems.get problem).trans known.1.2,
        number.trans fits.2⟩
  | finished key own live =>
    left
    obtain ⟨slot, job, problem, rfl, here, rfl, rfl⟩ := performs.of_finish
    have id : row.id = job.id := key
    rw [id] at found
    have same : row.problem = job.problem := sound.problem (by rw [here]; rfl) found
    have known := knows slot
    rw [here] at known
    obtain ⟨loaded, _, number, _⟩ := known.result
    exact ⟨problem, (congrArg s.settings.problems.get same).trans loaded, number⟩
  | _ => exact Or.inl total

/-- **A step that records no compile step keeps the totals.** -/
theorem Totals.step (sound : Sound s) (knows : ∀ slot, (s.workers slot).Knows s.settings)
    (loaded : s.settings.problems = problems) (serves : Serves problems s event)
    (step : Step s event after) (other : ¬ RecordsCompiling s event) (totals : Totals problems s) :
    Totals problems after := by
  subst loaded
  intro id next found'
  cases found : s.queue.store.submissions.get id with
  | none =>
    obtain ⟨world, new, rfl, rfl⟩ := Step.row_new step found found'
    obtain ⟨_, _, _, made⟩ := serves
    exact newSubmission_total made world
  | some row =>
    have total := totals id row found
    rcases Step.performs step with same | ⟨op, performs, same⟩
    · rw [same, found] at found'
      cases found'
      exact total
    · rw [same] at found'
      obtain rfl : row.id = id := Table.get_key found
      exact (total_written sound knows performs found found' total).resolve_right other

/-- **A recorded compile step leaves a row with no tests.** -/
theorem not_totals_of_records (step : Step s event after) (records : RecordsCompiling s event) :
    ¬ Totals problems after := by
  intro totals
  cases step with
  | @heartbeat slot world run event later op here _ received writes =>
    obtain ⟨works, _, _, row, here', received', found, own, flying⟩ := records
    cases here.symm.trans here'
    cases received.symm.trans received'
    subst writes
    have done := Store.execute_owned_of_row works found own Status.inFlight flying
      (progressed world .compiling 0 0 s.settings.leaseMs) (· == 1)
    obtain ⟨problem, _, none⟩ := totals run.job.id
      ((progressed world .compiling 0 0 s.settings.leaseMs).set row) (by
        refine (congrArg (fun written => written.2.submissions.get run.job.id) done).trans ?_
        rw [Store.get_set, if_pos rfl, found]
        rfl)
    exact problem.loaded.nonempty (List.length_eq_zero_iff.mp none.symm)
  | _ => exact records.elim

end Steps

/-! ### Runs -/

section Runs

variable {problems : ProblemSet} {steps : List (Transition System Event)} {s : System}

/-- A run over one set of problems is a run. -/
theorem run_of_serving (run : (serving problems).Run steps s) : system.Run steps s := by
  induction run with
  | start initial => exact .start initial.1
  | next _ step ih => exact ih.next step.2

theorem serving_next (earlier : (serving problems).Run steps s) {event : Event} {after : System}
    (step : Step s event after) (serves : Serves problems s event) :
    (serving problems).Run (⟨s, event, after⟩ :: steps) after :=
  earlier.next ⟨serves, step⟩

theorem serving_loaded : (serving problems).Invariant fun s => s.settings.problems = problems where
  start _ initial := initial.2
  step s event after loaded := by
    rintro ⟨serves, step⟩
    cases step with
    | restart _ _ _ => exact serves
    | _ => exact loaded

/-- **The totals are right throughout a run exactly if no compile step is recorded in it.** -/
theorem totals_kept_iff (run : (serving problems).Run steps s) :
    (∀ taken ∈ steps, Totals problems taken.after) ↔
      ∀ taken ∈ steps, ¬ RecordsCompiling taken.before taken.label := by
  constructor
  · intro totals taken member records
    obtain ⟨_, _, step⟩ := serving_loaded.of_transition run member
    exact not_totals_of_records step records (totals taken member)
  · intro calm
    suffices all : Totals problems s ∧ ∀ taken ∈ steps, Totals problems taken.after from all.2
    induction run with
    | start initial =>
      obtain ⟨⟨settings, rfl⟩, _⟩ := initial
      exact ⟨fun id row found => (by cases found), fun _ member => absurd member List.not_mem_nil⟩
    | next earlier step ih =>
      obtain ⟨totals, before⟩ := ih fun taken member => calm taken (List.mem_cons_of_mem _ member)
      have plain := run_of_serving earlier
      have kept := Totals.step (sound_invariant.of_run plain) (knows_invariant.of_run plain)
        (serving_loaded.of_run earlier) step.1 step.2 (calm _ List.mem_cons_self) totals
      refine ⟨kept, fun taken member => ?_⟩
      rcases List.mem_cons.mp member with rfl | member
      · exact kept
      · exact before taken member

end Runs

end Server

/-! ### Two runs -/

/-- What a request stores, in a language. -/
def newIn (language : String) : NewSubmission := ⟨"local", "p", "v1", language, "src", 1, none⟩

theorem made_in_python : letI := plainHost
    newSubmission sampleSettings 100 none ⟨"p", "python", "src"⟩ = .ok (newIn "python") := rfl

theorem made_in_rust : letI := plainHost
    newSubmission sampleSettings 100 none ⟨"p", "rust", "src"⟩ = .ok (newIn "rust") := rfl

set_option maxRecDepth 10000 in
/-- Without a compile step the totals are right. -/
theorem totals_kept_sample : letI := plainHost
    ∃ steps s, (serving sampleSettings.problems).Run steps s ∧
      (s.queue.store.submissions.get "s1").map (fun row => (row.status, row.testsTotal)) =
        some (.running, 1) ∧
      ∀ taken ∈ steps, Totals sampleSettings.problems taken.after := by
  let host := plainHost
  have run : (serving sampleSettings.problems).Run [] (started sampleSettings) :=
    .start ⟨⟨_, rfl⟩, rfl⟩
  have run := serving_next run (Step.insert (worldAt 0) (newIn "python")) ⟨100, none, _, made_in_python⟩
  have run := serving_next run (Step.claim 0 (worldAt 0) rfl) trivial
  have run := serving_next run (Step.begin 0 rfl rfl) trivial
  have run := serving_next run (Step.call 0 rfl rfl (by exact .ok ())) trivial
  have run := serving_next run (Step.call 0 rfl rfl (by exact .ok ())) trivial
  have run := serving_next run (Step.call 0 rfl rfl (by exact ())) trivial
  have run := serving_next run (Step.heartbeat 0 (worldAt 0) rfl rfl rfl rfl) trivial
  refine ⟨_, _, run, rfl, (totals_kept_iff run).mpr fun taken member => ?_⟩
  simp only [List.mem_cons, List.not_mem_nil, or_false] at member
  rcases member with rfl | rfl | rfl | rfl | rfl | rfl | rfl
  · rintro ⟨_, _, _, _, here, received, _⟩
    cases here
    cases received
  all_goals exact id

set_option maxRecDepth 10000 in
/-- The sandbox fails after the compile step was recorded: the submission is given up, and shows
that its problem has no tests. -/
theorem totals_lost : letI := plainHost
    ∃ steps s, (serving sampleSettings.problems).Run steps s ∧
      ∃ row, s.queue.store.submissions.get "s1" = some row ∧ row.status = .done ∧
        row.verdict = some "IE" ∧ row.testsTotal = 0 ∧ ¬ row.Total sampleSettings.problems := by
  let host := plainHost
  have run : (serving sampleSettings.problems).Run [] (started sampleSettings) :=
    .start ⟨⟨_, rfl⟩, rfl⟩
  have run := serving_next run (Step.insert (worldAt 0) (newIn "rust")) ⟨100, none, _, made_in_rust⟩
  have run := serving_next run (Step.claim 0 (worldAt 0) rfl) trivial
  have run := serving_next run (Step.begin 0 rfl rfl) trivial
  have run := serving_next run (Step.call 0 rfl rfl (by exact .ok ())) trivial
  have run := serving_next run (Step.call 0 rfl rfl (by exact .ok ())) trivial
  have run := serving_next run (Step.call 0 rfl rfl (by exact ())) trivial
  have run := serving_next run (Step.heartbeat 0 (worldAt 0) rfl rfl rfl rfl) trivial
  have run := serving_next run (Step.beatFetch 0 (worldAt 0) rfl rfl) trivial
  have run := serving_next run (Step.beatPublish 0 rfl rfl) trivial
  have run := serving_next run (Step.call 0 rfl rfl (by exact .error (.backend "no cgroup"))) trivial
  have run := serving_next run (Step.call 0 rfl rfl (by exact .ok ())) trivial
  have run := serving_next run (Step.returned 0 rfl rfl rfl rfl) trivial
  have run := serving_next run (Step.store 0 (worldAt 0) rfl rfl) trivial
  refine ⟨_, _, run, _, rfl, rfl, rfl, rfl, ?_⟩
  rintro ⟨problem, _, none⟩
  exact problem.loaded.nonempty (List.length_eq_zero_iff.mp none.symm)

end Codexec.Server
