/-
**Why a submission ends as an internal error.**

`fail_attempt` and `sweep` give a submission up when its attempts are used up, and a worker gives it
up at once, with a limit of 0, when its problem or its language is gone (`Surrenders`). A result of
`judge` is never an internal error. So over a run with one limit a row that is done as `IE` has used
up its attempts, or the worker with the latest token has surrendered (`no_premature_internal_error`).
-/

import Codexec.Server.Working

namespace Codexec.Server

open Codexec Codexec.Library Machine Program

/-- The row says that its submission was given up. -/
structure Row.GivenUp (row : Row) : Prop where
  status : row.status = .done
  verdict : row.verdict = some "IE"

section Server

variable [Host]

/-- In this step a worker finds that the problem or the language of its job is gone. -/
def Surrenders (taken : Transition System Event) (job : Job) : Prop :=
  ∃ slot world, taken.label = .abandon slot world ∧ taken.before.workers slot = .claimed job ∧
      taken.before.settings.problems.get job.problem = none ∨
    taken.label = .store slot world ∧ (∃ problem language,
      taken.before.workers slot = .storing job problem (.error (.unknownLanguage language))) ∧
        taken.before.settings.judge.languages.get job.language = none

/-- In this step a result for the submission is stored. -/
def StoresResult (taken : Transition System Event) (id : String) : Prop :=
  ∃ slot world job problem result, job.id = id ∧ taken.label = .store slot world ∧
    taken.before.workers slot = .storing job problem (.ok result) ∧
      (storeOp taken.before.settings world job problem (.ok result)).applied
        taken.before.queue.store = true

/-- The attempts of the row are used up, or the worker with its token has surrendered. -/
def Justified (limit : UInt32) (steps : List (Transition System Event)) (s : System) (id : String)
    (row : Row) : Prop :=
  limit.toNat ≤ row.attempt ∨ ∃ taken ∈ steps, ∃ job, Surrenders taken job ∧ job.id = id ∧
    row.attempt = job.attempt.toNat ∧ job.token ∈ s.queue.issued

section Steps

variable {limit : UInt32} {s after : System} {event : Event}

/-- **What gives a submission up** in one step. -/
theorem justified_moved (sound : Sound s) (knows : ∀ slot, (s.workers slot).Knows s.settings)
    (same : s.settings.maxAttempts = limit) {op : Op} (performs : Performs s event op)
    {row next : Row} (moved : RowStep op row next) (given : next.GivenUp) :
    next = row ∨ limit.toNat ≤ next.attempt ∨ ∃ job, Surrenders ⟨s, event, after⟩ job ∧
      row.id = job.id ∧ next.attempt = job.attempt.toNat ∧ job.token ∈ s.queue.issued := by
  cases moved with
  | same => exact Or.inl rfl
  | claimed _ => cases given.status
  | retried _ _ _ _ => cases given.status
  | sweptBack _ => cases given.status
  | restarted _ _ => cases given.status
  | @progressed _ _ status _ _ _ _ _ _ _ =>
    obtain ⟨_, _, report, _, _, _, _, _, recorded⟩ := performs.of_progress
    have running : status = .done := given.status
    cases report <;> cases running.symm.trans (congrArg Prod.fst recorded)
  | finished _ _ _ =>
    obtain ⟨slot, job, problem, rfl, here, rfl, rfl⟩ := performs.of_finish
    have known := knows slot
    rw [here] at known
    exact absurd (Verdict.code_eq_IE.mp (Option.some.inj given.verdict)) known.result.2.1
  | sweptUp lost =>
    right; left
    rw [hopeless, Bool.and_eq_true, decide_eq_true_eq, performs.of_sweep, same] at lost
    exact lost.2
  | @gaveUp world token maxAttempts error _ key own live spent =>
    right
    obtain ⟨slot, job, rfl, ⟨rfl, here, rfl, missing⟩ | ⟨problem, e, rfl, here, reason⟩⟩ :=
      performs.of_failAttempt
    · right
      have issued := (sound.holds (by rw [here]; rfl) : Holds s.queue job).issued
      exact ⟨job, ⟨slot, world, Or.inl ⟨rfl, here, missing⟩⟩, key, own, issued⟩
    · rcases reason with ⟨language, rfl, rfl⟩ | rfl
      · right
        have issued := (sound.holds (by rw [here]; rfl) : Holds s.queue job).issued
        have known := knows slot
        rw [here] at known
        exact ⟨job, ⟨slot, world, Or.inr ⟨rfl, ⟨problem, language, here⟩, known.unknown⟩⟩, key, own,
          issued⟩
      · left
        have most := UInt32.le_iff_toNat_le.mp spent
        rw [same] at most
        exact most.trans_eq own.symm

end Steps

/-! ### Runs -/

section Runs

variable {limit : UInt32} {steps : List (Transition System Event)} {s : System}

theorem justified_of_run (run : system.Run steps s)
    (fixed : ∀ settings ∈ s.loaded, settings.maxAttempts = limit) {id : String} {row : Row}
    (found : s.queue.store.submissions.get id = some row) (given : row.GivenUp) :
    Justified limit steps s id row := by
  induction run generalizing row with
  | start initial =>
    obtain ⟨settings, rfl⟩ := initial
    cases found
  | @next steps s after label earlier step ih =>
    have sound := sound_invariant.of_run earlier
    have grows := Step.grows step
    have before : ∀ settings ∈ s.loaded, settings.maxAttempts = limit :=
      fun settings inside => fixed settings (grows.loaded settings inside)
    cases held : s.queue.store.submissions.get id with
    | none =>
      obtain ⟨_, _, _, rfl⟩ := Step.row_new step held found
      cases given.status
    | some old =>
      have issued : ∀ token ∈ s.queue.issued, token ∈ after.queue.issued := by
        rcases Step.performs step with same | ⟨op, _, same⟩
        · rw [same]
          exact fun _ inside => inside
        · rw [same]
          exact fun _ inside => List.mem_append_right _ inside
      have kept (same : row = old) : Justified limit (⟨s, label, after⟩ :: steps) after id row := by
        subst same
        rcases ih before held given with spent | ⟨taken, member, job, found, key, own, inside⟩
        · exact Or.inl spent
        · exact Or.inr ⟨taken, List.mem_cons_of_mem _ member, job, found, key, own,
            issued _ inside⟩
      obtain ⟨next, found', moves⟩ := Step.row_cases step held
      cases found.symm.trans found'
      rcases moves with same | ⟨op, performs, moved⟩
      · exact kept same
      · rcases justified_moved sound (knows_invariant.of_run earlier) (before _ sound.current)
          performs moved given with same | spent | ⟨job, surrenders, key, own, inside⟩
        · exact kept same
        · exact Or.inl spent
        · exact Or.inr ⟨_, List.mem_cons_self, job, surrenders,
            key.symm.trans (Table.get_key held), own, issued _ inside⟩

/-- A submission that was given up had no result. -/
theorem no_result_of_given (run : system.Run steps s) {id : String} {row : Row}
    (found : s.queue.store.submissions.get id = some row) (given : row.GivenUp) :
    ∀ taken ∈ steps, ¬ StoresResult taken id := by
  rintro taken member ⟨slot, world, job, problem, result, rfl, label, here, applied⟩
  obtain ⟨old, _, settled⟩ := stored_settles run member label here applied
  cases found.symm.trans settled.1
  have known := (knows_invariant.of_transition run member).1 slot
  rw [here] at known
  exact known.result.2.1 (Verdict.code_eq_IE.mp (Option.some.inj given.verdict))

/-- **No premature internal error.** -/
theorem no_premature_internal_error (run : system.Run steps s)
    (fixed : ∀ settings ∈ s.loaded, settings.maxAttempts = limit) :
    (∀ id row, s.queue.store.submissions.get id = some row → row.status = .done →
      row.verdict = some "IE" →
        (limit.toNat ≤ (s.queue.tokens id).length ∧ ∀ taken ∈ steps, ¬ StoresResult taken id) ∨
          ∃ taken ∈ steps, ∃ job, job.id = id ∧ s.queue.latest id = some job.token ∧
            Surrenders taken job) ∧
      ∀ (judge : Judge) (req : JudgeRequest) (progress : Bool)
        (transcript : List (Exchange Call.Answer)) (result : JudgeResult),
        Follows (judge.judge req progress) transcript (.pure (.ok result)) →
          result.verdict ≠ .internalError := by
  constructor
  · intro id row found done verdict
    have given : row.GivenUp := ⟨done, verdict⟩
    have fenced := reachable_fenced ⟨steps, run⟩
    rcases justified_of_run run fixed found given with
      spent | ⟨taken, member, job, surrenders, rfl, own, issued⟩
    · left
      refine ⟨?_, no_result_of_given run found given⟩
      have lengths := congrArg List.length (fenced id)
      rw [List.length_map, length_countdown, Store.attempts_of_get found] at lengths
      rw [lengths]
      exact spent
    · right
      exact ⟨taken, member, job, rfl, latest_of_attempt fenced issued found own, surrenders⟩
  · intro judge req progress transcript result follows
    obtain ⟨lang, _, executed⟩ := judge.judge_executes follows
    exact executed.verdict_ne_internalError

end Runs

end Server

set_option maxRecDepth 10000 in
/-- With a limit of one attempt, the sandbox fails once. -/
theorem no_premature_internal_error_sample : letI := plainHost
    ∃ steps s, system.Run steps s ∧
      (s.queue.store.submissions.get "s1").map (fun row => (row.status, row.verdict)) =
        some (.done, some "IE") ∧
      ((1 ≤ (s.queue.tokens "s1").length ∧ ∀ taken ∈ steps, ¬ StoresResult taken "s1") ∨
        ∃ taken ∈ steps, ∃ job, job.id = "s1" ∧ s.queue.latest "s1" = some job.token ∧
          Surrenders taken job) := by
  let host := plainHost
  have run := (run_started sampleSettings).next (Step.insert (worldAt 0) sampleSubmission)
  have run := run.next (Step.claim 0 (worldAt 0) rfl)
  have run := run.next (Step.begin 0 rfl rfl)
  have run := run.next (Step.call 0 rfl rfl (by exact .error (.backend "no box")))
  have run := run.next (Step.returned 0 rfl rfl rfl rfl)
  have run := run.next (Step.store 0 (worldAt 0) rfl rfl)
  refine ⟨_, _, run, rfl, ?_⟩
  have fixed : ∀ settings ∈ [sampleSettings], settings.maxAttempts = 1 := by
    intro settings inside
    rw [List.mem_singleton.mp inside]
    rfl
  exact (no_premature_internal_error run fixed).1 "s1" _ rfl rfl rfl

end Codexec.Server
