/-
**The lease of one job.**

`Kept` says how far the lease of a job reaches while the row is in the attempt of the job. Every call
on the queue in time leaves it so, except a write that ends this very attempt, and a heartbeat moves
it forward.
-/

import Codexec.Server.Fencing
import Mathlib.Algebra.Group.Int.Defs

namespace Codexec.Server

open Codexec Codexec.Library

/-! ### Clock and lease in `i64` -/

/-- A lease that is added without overflow. -/
theorem renewed {clock : Nat} {leaseMs : Int64} (positive : 0 ≤ leaseMs.toInt)
    (fits : clock + leaseMs.toInt < 2 ^ 63) :
    (Int64.ofNat clock + leaseMs).toInt = clock + leaseMs.toInt := by
  have small : clock < 2 ^ 63 := by omega
  rw [Int64.toInt_add, Int64.toInt_ofNat_of_lt small]
  exact Int.bmod_eq_of_le (by omega) (by omega)

/-- A lease that reaches to the clock has not expired. -/
theorem not_expired {clock : Nat} {row : Row} {until? : Int64} (small : clock < 2 ^ 63)
    (lease : row.leaseUntilMs = some until?) (reaches : clock ≤ until?.toInt) :
    expired (Int64.ofNat clock) row = false := by
  have late : ¬ until? < Int64.ofNat clock := by
    rw [Int64.lt_iff_toInt_lt, Int64.toInt_ofNat_of_lt small]
    omega
  rw [expired, lease, Option.any_some, decide_eq_false late, Bool.and_false]

/-! ### One job -/

/-- The calls of one moment: they read the clock and add the lease. -/
def Op.OnTime (clock : Nat) (leaseMs : Int64) : Op → Prop
  | .claimNext world lease => world.now = Int64.ofNat clock ∧ lease = leaseMs
  | .progress world _ status _ _ lease =>
    world.now = Int64.ofNat clock ∧ lease = leaseMs ∧ status.inFlight = true
  | .sweep world _ => world.now = Int64.ofNat clock
  | .requeueInflight _ => False
  | _ => True

/-- The token of a write that ends an attempt. -/
def Op.ending : Op → Option Token
  | .finish _ token _ _ _ => some token
  | .failAttempt _ token _ _ => some token
  | _ => none

/-- In its current attempt the job has a lease up to `least`; a worker that has not written its
outcome is in the current attempt. -/
structure KeptRow (job : Job) (active : Bool) (least : Int) (row : Row) : Prop where
  past : job.attempt.toNat ≤ row.attempt
  leased : row.attempt = job.attempt.toNat → row.status.inFlight = true →
    ∃ until?, row.leaseUntilMs = some until? ∧ least ≤ until?.toInt
  own : active = true → row.attempt < 2 ^ 32 →
    row.attempt = job.attempt.toNat ∧ row.status.inFlight = true

def Kept (state : Queue) (job : Job) (active : Bool) (least : Int) : Prop :=
  ∃ row, state.store.submissions.get job.id = some row ∧ KeptRow job active least row

section Row

variable {clock : Nat} {leaseMs : Int64} {job : Job} {active : Bool} {least least' : Int}
  {row next : Row} {state : Queue} {op : Op}

theorem Kept.mono (kept : Kept state job active least) (earlier : least' ≤ least) :
    Kept state job active least' := by
  obtain ⟨row, found, past, leased, own⟩ := kept
  refine ⟨row, found, past, fun current flying => ?_, own⟩
  obtain ⟨until?, lease, reaches⟩ := leased current flying
  exact ⟨until?, lease, earlier.trans reaches⟩

theorem Kept.retired (kept : Kept state job active least) : Kept state job false least := by
  obtain ⟨row, found, past, leased, _⟩ := kept
  exact ⟨row, found, past, leased, fun active => by cases active⟩

/-- A row that is out of flight needs no lease. -/
theorem KeptRow.of_ended (past : job.attempt.toNat ≤ row.attempt)
    (grounded : row.status.inFlight = false) (lost : active = true → ¬ row.attempt < 2 ^ 32) :
    KeptRow job active least row := by
  refine ⟨past, fun _ flying => ?_, fun live small => absurd small (lost live)⟩
  rw [grounded] at flying
  cases flying

/-- A token that fits a row in the attempt of the job is the job's own. -/
theorem token_of_row {token : Token} (key : row.id = job.id) (own : row.attempt = job.attempt.toNat)
    (key' : row.id = token.id) (own' : row.attempt = token.attempt.toNat) : token = job.token := by
  obtain ⟨id, attempt⟩ := token
  have attempts : attempt = job.attempt := UInt32.toNat_inj.mp (own'.symm.trans own)
  rw [Job.token, attempts, ← key, key']

/-- **No call takes the lease away**, except a write that ends the attempt of this very job. -/
theorem KeptRow.step (kept : KeptRow job active least row) (same : row.id = job.id)
    (onTime : op.OnTime clock leaseMs)
    (positive : 0 ≤ leaseMs.toInt) (fits : clock + leaseMs.toInt < 2 ^ 63) (earliest : clock ≤ least)
    (latest : least ≤ clock + leaseMs.toInt)
    (other : active = true → row.attempt < 2 ^ 32 → op.ending ≠ some job.token)
    (moved : RowStep op row next) : KeptRow job active least next := by
  -- A row is not the one of a writer that ends another attempt.
  have foreign : ∀ token : Token, op.ending = some token → row.id = token.id →
      row.attempt = token.attempt.toNat → active = true → ¬ row.attempt < 2 ^ 32 := by
    intro token ends key own live small
    refine other live small (ends.trans (congrArg some ?_))
    exact token_of_row same (kept.own live small).1 key own
  have unexpired : row.attempt = job.attempt.toNat → expired (Int64.ofNat clock) row = false := by
    intro current
    by_cases flying : row.status.inFlight = true
    · obtain ⟨until?, lease, reaches⟩ := kept.leased current flying
      exact not_expired (by omega) lease (by omega)
    · rw [expired, Bool.eq_false_iff.mpr flying, Bool.false_and]
  cases moved with
  | same => exact kept
  | claimed queued =>
    refine ⟨Nat.le_succ_of_le kept.past, fun current => ?_, fun live small => ?_⟩
    · have past := kept.past
      have current : row.attempt + 1 = job.attempt.toNat := current
      omega
    · have small : row.attempt + 1 < 2 ^ 32 := small
      have flying := (kept.own live (by omega)).2
      rw [queued] at flying
      cases flying
  | @progressed world token status _ _ _ _ key own flying =>
    obtain ⟨now, rfl, reported⟩ := onTime
    refine ⟨kept.past, fun _ _ => ⟨_, rfl, ?_⟩, fun live small => ?_⟩
    · rw [now, renewed positive fits]
      exact latest
    · exact ⟨(kept.own live small).1, reported⟩
  | finished key own live => exact .of_ended kept.past rfl (foreign _ rfl key own)
  | gaveUp key own live spent => exact .of_ended kept.past rfl (foreign _ rfl key own)
  | retried key own live left => exact .of_ended kept.past rfl (foreign _ rfl key own)
  | @sweptUp world maxAttempts _ lost =>
    have now : world.now = Int64.ofNat clock := onTime
    rw [hopeless, now, Bool.and_eq_true] at lost
    refine .of_ended kept.past rfl fun live small => ?_
    rw [unexpired (kept.own live small).1] at lost
    cases lost.1
  | @sweptBack world maxAttempts _ found =>
    have now : world.now = Int64.ofNat clock := onTime
    rw [recoverable, now, Bool.and_eq_true] at found
    refine .of_ended kept.past rfl fun live small => ?_
    rw [unexpired (kept.own live small).1] at found
    cases found.1
  | restarted _ _ => exact absurd onTime id

theorem Kept.perform (kept : Kept state job active least) (onTime : op.OnTime clock leaseMs)
    (positive : 0 ≤ leaseMs.toInt) (fits : clock + leaseMs.toInt < 2 ^ 63) (earliest : clock ≤ least)
    (latest : least ≤ clock + leaseMs.toInt)
    (other : active = true → ∀ row, state.store.submissions.get job.id = some row →
      row.attempt < 2 ^ 32 → op.ending ≠ some job.token) :
    Kept (state.perform op) job active least := by
  obtain ⟨row, found, kept⟩ := kept
  obtain ⟨next, found', moved⟩ := op.row_cases found
  refine ⟨next, found',
    kept.step (Table.get_key found) onTime positive fits earliest latest ?_ moved⟩
  intro live small
  exact other live row found small

/-- **A heartbeat renews the lease of its job.** -/
theorem Kept.renew (kept : Kept state job active least) {world : World} {status : Status}
    {testsDone testsTotal : Nat} (works : world.fault 0 = none) (now : world.now = Int64.ofNat clock)
    (flying : status.inFlight = true) (positive : 0 ≤ leaseMs.toInt)
    (fits : clock + leaseMs.toInt < 2 ^ 63) :
    Kept (state.perform (.progress world job.token status testsDone testsTotal leaseMs)) job active
      (clock + leaseMs.toInt) := by
  obtain ⟨row, found, past, _, own⟩ := kept
  have written : (Op.progress world job.token status testsDone testsTotal leaseMs).after state.store =
      (state.store.execute world (owned job.id job.attempt Status.inFlight)
        (progressed world status testsDone testsTotal leaseMs) (· == 1)).2 := rfl
  rcases state.store.execute_owned_cases world job.id job.attempt Status.inFlight
    (progressed world status testsDone testsTotal leaseMs) (· == 1) with
    ⟨e, failed⟩ | ⟨row', found', current, live, done⟩ | ⟨passed, done⟩
  · rw [Store.execute, World.statement_of_none works] at failed
    cases failed
  · cases found.symm.trans found'
    refine ⟨(progressed world status testsDone testsTotal leaseMs).set row, ?_, past,
      fun _ _ => ⟨_, rfl, ?_⟩, fun _ _ => ⟨current, flying⟩⟩
    · show (Op.after state.store _).submissions.get job.id = _
      rw [written, done, Store.get_set, if_pos rfl, found]
      rfl
    · rw [now, renewed positive fits]
  · refine ⟨row, ?_, past, fun current live => ?_, own⟩
    · show (Op.after state.store _).submissions.get job.id = _
      rw [written, done, found]
    · rw [passed row found current] at live
      cases live

end Row

end Codexec.Server
