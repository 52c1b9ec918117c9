/-
**Bounded retries.**

`sweep` and `fail_attempt` give a submission up once its attempts are used up, so a queued
submission has one left (`Bounded`). `requeue_inflight` does not look at the attempts: a server that
dies during the last attempt queues the submission again when it starts.
-/

import Codexec.Server.Fencing

namespace Codexec.Server

open Codexec Codexec.Library Machine

/-- The calls of a server with a fixed limit; `fail_permanently` passes 0. -/
def limited (maxAttempts : UInt32) (_ : Queue) : Op → Prop
  | .failAttempt _ _ limit _ => limit = maxAttempts ∨ limit = 0
  | .sweep _ limit => limit = maxAttempts
  | _ => True

/-- No start-up puts a submission back whose attempts are used up. -/
def restartsInTime (maxAttempts : UInt32) (state : Queue) : Op → Prop
  | .requeueInflight world => world.fault 0 = none → ∀ row ∈ state.store.submissions.rows,
      row.status.inFlight = true → row.attempt < maxAttempts.toNat
  | _ => True

/-- The limit holds, and who waits in the queue has an attempt left. -/
structure Bounded (maxAttempts : UInt32) (row : Row) : Prop where
  attempt : row.attempt ≤ maxAttempts.toNat
  queued : row.status = .queued → row.attempt < maxAttempts.toNat

theorem RowStep.bounded {maxAttempts : UInt32} {state : Queue} {op : Op} {row next : Row}
    (permitted : op.Permitted state.issued) (called : limited maxAttempts state op)
    (inTime : restartsInTime maxAttempts state op)
    (stored : row ∈ state.store.submissions.rows) (bounded : Bounded maxAttempts row)
    (step : RowStep op row next) : Bounded maxAttempts next := by
  have limit := bounded.attempt
  cases step with
  | same => exact bounded
  | claimed queued => exact ⟨bounded.queued queued, fun status => by cases status⟩
  | @progressed world token reported _ _ _ _ _ _ _ =>
    refine ⟨limit, fun status => ?_⟩
    have waiting : reported = .queued := status
    have flying := permitted.2
    rw [waiting] at flying
    cases flying
  | finished _ _ _ => exact ⟨limit, fun status => by cases status⟩
  | gaveUp _ _ _ _ => exact ⟨limit, fun status => by cases status⟩
  | retried _ own _ left =>
    refine ⟨limit, fun _ => ?_⟩
    rw [UInt32.le_iff_toNat_le] at left
    rcases called with same | none
    · rw [same] at left
      show row.attempt < maxAttempts.toNat
      omega
    · rw [none] at left
      exact absurd (Nat.zero_le _) left
  | sweptUp _ => exact ⟨limit, fun status => by cases status⟩
  | sweptBack found =>
    refine ⟨limit, fun _ => ?_⟩
    rw [recoverable, Bool.and_eq_true, decide_eq_true_eq, called] at found
    exact found.2
  | restarted works flying => exact ⟨limit, fun _ => inTime works row stored flying⟩

theorem bounded_invariant {maxAttempts : UInt32} (positive : 1 ≤ maxAttempts) :
    (queue.guarded fun state op => limited maxAttempts state op ∧
      restartsInTime maxAttempts state op).Invariant fun state =>
        ∀ id row, state.store.submissions.get id = some row → Bounded maxAttempts row := by
  have least : 1 ≤ maxAttempts.toNat := UInt32.le_iff_toNat_le.mp positive
  refine rows_invariant ?_ ?_
  · intro world new
    exact ⟨Nat.zero_le _, fun _ => least⟩
  · intro state op row next permitted called stored bounded step
    exact step.bounded permitted called.1 called.2 (Table.get_eq_some.mp stored).1 bounded

/-- **With start-ups in time no submission is claimed more often than the limit.** -/
theorem retries_bounded {maxAttempts : UInt32} (positive : 1 ≤ maxAttempts)
    {steps : List (Transition Queue Op)} {state : Queue}
    (run : (queue.guarded (limited maxAttempts)).Run steps state)
    (inTime : ∀ taken ∈ steps, restartsInTime maxAttempts taken.before taken.label) :
    (∀ id row, state.store.submissions.get id = some row → row.attempt ≤ maxAttempts.toNat) ∧
      ∀ id, (state.tokens id).length ≤ maxAttempts.toNat := by
  obtain ⟨plain, called⟩ := run.of_guarded
  have rows := (bounded_invariant positive).of_run
    (plain.guarded fun taken member => ⟨called taken member, inTime taken member⟩)
  refine ⟨fun id row found => (rows id row found).attempt, fun id => ?_⟩
  have lengths := congrArg List.length (fenced_invariant.of_run plain id)
  rw [List.length_map, length_countdown] at lengths
  rw [lengths, Store.attempts]
  cases found : state.store.submissions.get id with
  | none => exact Nat.zero_le _
  | some row => exact (rows id row found).attempt

/-- A start-up, a failed attempt and a lost lease: three attempts, and no more. -/
def givenUpOps : List Op :=
  [.insert (worldAt 0) sampleSubmission, .claimNext (worldAt 10) 60000,
    .requeueInflight (worldAt 20), .claimNext (worldAt 30) 60000,
    .failAttempt (worldAt 40) ⟨"s1", 2⟩ 3 "no sandbox", .claimNext (worldAt 50) 60000,
    .sweep (worldAt 70000) 3]

theorem givenUpOps_run :
    queue.Run (Queue.trace ⟨.empty, []⟩ givenUpOps [])
      (givenUpOps.foldl Queue.perform ⟨.empty, []⟩) := by
  refine Queue.run_trace (.start rfl)
    ⟨trivial, trivial, trivial, trivial, ?_, trivial, trivial, trivial⟩
  show (⟨"s1", 2⟩ : Token) ∈ Queue.issued _
  decide

theorem retries_bounded_sample : ∃ row,
    (givenUpOps.foldl Queue.perform ⟨.empty, []⟩).store.submissions.get "s1" = some row ∧
      row.attempt ≤ 3 ∧ row.status = .done := by
  have steps : ∀ taken ∈ Queue.trace ⟨.empty, []⟩ givenUpOps [],
      limited 3 taken.before taken.label ∧ restartsInTime 3 taken.before taken.label := by
    intro taken member
    simp only [givenUpOps, Queue.trace, List.mem_cons, List.not_mem_nil, or_false] at member
    rcases member with rfl | rfl | rfl | rfl | rfl | rfl | rfl
    · exact ⟨rfl, trivial⟩
    · exact ⟨trivial, trivial⟩
    · exact ⟨Or.inl rfl, trivial⟩
    · exact ⟨trivial, trivial⟩
    · exact ⟨trivial, fun _ => by decide⟩
    · exact ⟨trivial, trivial⟩
    · exact ⟨trivial, trivial⟩
  have run := givenUpOps_run.guarded fun taken member => (steps taken member).1
  have bounded := retries_bounded (by decide) run fun taken member => (steps taken member).2
  exact ⟨_, rfl, bounded.1 "s1" _ rfl, rfl⟩

/-- A server that dies during the only attempt, and starts again. -/
def restartOps : List Op :=
  [.insert (worldAt 0) sampleSubmission, .claimNext (worldAt 10) 60000,
    .requeueInflight (worldAt 20), .claimNext (worldAt 30) 60000]

/-- With a limit of one attempt the submission is claimed twice. -/
theorem restart_exceeds_limit : ∃ steps state, (queue.guarded (limited 1)).Run steps state ∧
    ∃ row, state.store.submissions.get "s1" = some row ∧ row.attempt = 2 := by
  have permitted : Queue.Permits ⟨.empty, []⟩ restartOps := ⟨trivial, trivial, trivial, trivial, trivial⟩
  have run := Queue.run_trace (.start rfl) permitted
  refine ⟨_, _, run.guarded ?_, _, rfl, rfl⟩
  intro taken member
  simp only [restartOps, Queue.trace, List.mem_cons, List.not_mem_nil, or_false] at member
  rcases member with rfl | rfl | rfl | rfl <;> trivial

end Codexec.Server
