/-
**The queue as a machine.**

The operations of the store, each one atomic, in any order and by any number of parties. A worker
writes only with a token that a claim returned, and reports progress only as compiling or running.
`RowStep` says what one operation can do to one row and under which condition; every invariant of
rows is checked once against it (`row_cases`, `rows_invariant`).
-/

import Codexec.Server.Effects
import Codexec.Library.Machine

namespace Codexec.Server

open Codexec Codexec.Library

/-- The fencing token of a claim. -/
structure Token where
  id : String
  attempt : UInt32
  deriving DecidableEq

def Job.token (job : Job) : Token := ⟨job.id, job.attempt⟩

/-- One call on the store. -/
inductive Op
  | insert (world : World) (new : NewSubmission)
  | claimNext (world : World) (leaseMs : Int64)
  | progress (world : World) (token : Token) (status : Status) (testsDone testsTotal : Nat)
      (leaseMs : Int64)
  | finish (world : World) (token : Token) (problemVersion judgeVersion : String)
      (result : JudgeResult)
  | failAttempt (world : World) (token : Token) (maxAttempts : UInt32) (error : String)
  | sweep (world : World) (maxAttempts : UInt32)
  | requeueInflight (world : World)

namespace Op

/-- The tables after a call. -/
def after (store : Store) : Op → Store
  | .insert world new => (store.insert world new).2
  | .claimNext world leaseMs => (store.claimNext world leaseMs).2
  | .progress world token status testsDone testsTotal leaseMs =>
    (store.progress world token.id token.attempt status testsDone testsTotal leaseMs).2
  | .finish world token problemVersion judgeVersion result =>
    (store.finish world token.id token.attempt problemVersion judgeVersion result).2
  | .failAttempt world token maxAttempts error =>
    (store.failAttempt world token.id token.attempt maxAttempts error).2
  | .sweep world maxAttempts => (store.sweep world maxAttempts).2
  | .requeueInflight world => (store.requeueInflight world).2

/-- The token of the job a call returns. -/
def issues (store : Store) : Op → List Token
  | .claimNext world leaseMs =>
    match (store.claimNext world leaseMs).1 with
    | .ok (some job) => [job.token]
    | _ => []
  | _ => []

/-- The token of a worker's write. -/
def token? : Op → Option Token
  | .progress _ token _ _ _ _ => some token
  | .finish _ token _ _ _ => some token
  | .failAttempt _ token _ _ => some token
  | _ => none

/-- Whether a worker's write reports that it applied. -/
def applied (store : Store) : Op → Bool
  | .progress world token status testsDone testsTotal leaseMs =>
    match (store.progress world token.id token.attempt status testsDone testsTotal leaseMs).1 with
    | .ok applied => applied
    | .error _ => false
  | .finish world token problemVersion judgeVersion result =>
    match (store.finish world token.id token.attempt problemVersion judgeVersion result).1 with
    | .ok applied => applied
    | .error _ => false
  | .failAttempt world token maxAttempts error =>
    match (store.failAttempt world token.id token.attempt maxAttempts error).1 with
    | .ok applied => applied.isSome
    | .error _ => false
  | _ => false

/-- How workers call the store. -/
def Permitted (issued : List Token) : Op → Prop
  | .progress _ token status _ _ _ => token ∈ issued ∧ status.inFlight = true
  | .finish _ token _ _ _ => token ∈ issued
  | .failAttempt _ token _ _ => token ∈ issued
  | _ => True

/-- A worker writes with a token that a claim returned. -/
theorem Permitted.issued {issued : List Token} {op : Op} (permitted : op.Permitted issued)
    {token : Token} (writes : op.token? = some token) : token ∈ issued := by
  cases op with
  | progress _ _ _ _ _ _ =>
    cases writes
    exact permitted.1
  | finish _ _ _ _ _ =>
    cases writes
    exact permitted
  | failAttempt _ _ _ _ =>
    cases writes
    exact permitted
  | _ => cases writes

end Op

/-- The tables, and the tokens that claims returned, newest first. -/
structure Queue where
  store : Store
  issued : List Token

/-- After one more call. -/
def Queue.perform (state : Queue) (op : Op) : Queue :=
  ⟨op.after state.store, op.issues state.store ++ state.issued⟩

/-- The submission is done, in this row. -/
def Settled (id : String) (row : Row) (state : Queue) : Prop :=
  state.store.submissions.get id = some row ∧ row.status = .done

/-- Whether the submission is done. -/
def Queue.isDone (state : Queue) (id : String) : Bool :=
  (state.store.submissions.get id).any fun row => decide (row.status = .done)

theorem isDone_iff {state : Queue} {id : String} :
    state.isDone id = true ↔ ∃ row, Settled id row state := by
  unfold Queue.isDone Settled
  cases state.store.submissions.get id <;> simp

/-- Any interleaving of calls, from an empty database. -/
def queue : Machine Queue Op where
  start state := state = ⟨.empty, []⟩
  step state op after := op.Permitted state.issued ∧ after = state.perform op

/-! ### One call and one row -/

/-- What a call can do to a row. -/
inductive RowStep : Op → Row → Row → Prop
  | same {op : Op} {row : Row} : RowStep op row row
  | claimed {world : World} {leaseMs : Int64} {row : Row} (queued : row.status = .queued) :
      RowStep (.claimNext world leaseMs) row ((claimed world leaseMs).set row)
  | progressed {world : World} {token : Token} {status : Status} {testsDone testsTotal : Nat}
      {leaseMs : Int64} {row : Row} (key : row.id = token.id)
      (own : row.attempt = token.attempt.toNat)
      (flying : row.status.inFlight = true) :
      RowStep (.progress world token status testsDone testsTotal leaseMs) row
        ((progressed world status testsDone testsTotal leaseMs).set row)
  | finished {world : World} {token : Token} {problemVersion judgeVersion : String}
      {result : JudgeResult} {row : Row} (key : row.id = token.id)
      (own : row.attempt = token.attempt.toNat)
      (live : row.status ≠ .done) :
      RowStep (.finish world token problemVersion judgeVersion result) row
        ((finished world problemVersion judgeVersion result).set row)
  | gaveUp {world : World} {token : Token} {maxAttempts : UInt32} {error : String} {row : Row}
      (key : row.id = token.id)
      (own : row.attempt = token.attempt.toNat) (live : row.status ≠ .done)
      (spent : maxAttempts ≤ token.attempt) :
      RowStep (.failAttempt world token maxAttempts error) row
        ((givenUp world fun _ => error).set row)
  | retried {world : World} {token : Token} {maxAttempts : UInt32} {error : String} {row : Row}
      (key : row.id = token.id)
      (own : row.attempt = token.attempt.toNat) (live : row.status ≠ .done)
      (left : ¬ maxAttempts ≤ token.attempt) :
      RowStep (.failAttempt world token maxAttempts error) row
        ((requeued fun _ => some error).set row)
  | sweptUp {world : World} {maxAttempts : UInt32} {row : Row}
      (lost : hopeless world.now maxAttempts row = true) :
      RowStep (.sweep world maxAttempts) row ((givenUp world sweepError).set row)
  | sweptBack {world : World} {maxAttempts : UInt32} {row : Row}
      (found : recoverable world.now maxAttempts row = true) :
      RowStep (.sweep world maxAttempts) row ((requeued Row.error).set row)
  | restarted {world : World} {row : Row} (works : world.fault 0 = none)
      (flying : row.status.inFlight = true) :
      RowStep (.requeueInflight world) row ((requeued Row.error).set row)

namespace Op

variable {store : Store} {op : Op}

/-- **A worker's write applies to the row of its token, or does nothing.** -/
theorem write_cases (store : Store) {token : Token} (writes : op.token? = some token) :
    op.applied store = false ∧ op.after store = store ∨
      ∃ row change, op.applied store = true ∧ store.submissions.get token.id = some row ∧
        row.attempt = token.attempt.toNat ∧ op.after store = store.set token.id change ∧
        RowStep op row (change.set row) := by
  cases op with
  | insert world new => cases writes
  | claimNext world leaseMs => cases writes
  | sweep world maxAttempts => cases writes
  | requeueInflight world => cases writes
  | progress world token status testsDone testsTotal leaseMs =>
    cases writes
    simp only [applied, after, Store.progress]
    rcases store.execute_owned_cases world token.id token.attempt Status.inFlight
      (progressed world status testsDone testsTotal leaseMs) (· == 1) with
      ⟨e, failed⟩ | ⟨row, found, own, flying, done⟩ | ⟨_, passed⟩
    · exact Or.inl ⟨by rw [failed], by rw [failed]⟩
    · exact Or.inr ⟨row, _, by rw [done]; rfl, found, own, by rw [done],
        .progressed (Table.get_key found) own flying⟩
    · exact Or.inl ⟨by rw [passed]; rfl, by rw [passed]⟩
  | finish world token problemVersion judgeVersion result =>
    cases writes
    simp only [applied, after, Store.finish]
    rcases store.execute_owned_cases world token.id token.attempt (· != .done)
      (finished world problemVersion judgeVersion result) (· == 1) with
      ⟨e, failed⟩ | ⟨row, found, own, live, done⟩ | ⟨_, passed⟩
    · exact Or.inl ⟨by rw [failed], by rw [failed]⟩
    · exact Or.inr ⟨row, _, by rw [done]; rfl, found, own, by rw [done],
        .finished (Table.get_key found) own (bne_iff_ne.mp live)⟩
    · exact Or.inl ⟨by rw [passed]; rfl, by rw [passed]⟩
  | failAttempt world token maxAttempts error =>
    cases writes
    simp only [applied, after, Store.failAttempt]
    by_cases spent : maxAttempts ≤ token.attempt
    · simp only [if_pos spent]
      rcases store.execute_owned_cases world token.id token.attempt (· != .done)
        (givenUp world fun _ => error) (fun n => if n = 1 then some Status.done else none) with
        ⟨e, failed⟩ | ⟨row, found, own, live, done⟩ | ⟨_, passed⟩
      · exact Or.inl ⟨by rw [failed], by rw [failed]⟩
      · exact Or.inr ⟨row, _, by rw [done]; rfl, found, own, by rw [done],
          .gaveUp (Table.get_key found) own (bne_iff_ne.mp live) spent⟩
      · exact Or.inl ⟨by rw [passed]; rfl, by rw [passed]⟩
    · simp only [if_neg spent]
      rcases store.execute_owned_cases world token.id token.attempt (· != .done)
        (requeued fun _ => some error) (fun n => if n = 1 then some Status.queued else none) with
        ⟨e, failed⟩ | ⟨row, found, own, live, done⟩ | ⟨_, passed⟩
      · exact Or.inl ⟨by rw [failed], by rw [failed]⟩
      · exact Or.inr ⟨row, _, by rw [done]; rfl, found, own, by rw [done],
          .retried (Table.get_key found) own (bne_iff_ne.mp live) spent⟩
      · exact Or.inl ⟨by rw [passed]; rfl, by rw [passed]⟩

/-- **A call that returns a job has claimed one row**; any other issues no token. -/
theorem issues_cases (store : Store) (op : Op) : op.issues store = [] ∨
    ∃ world leaseMs row source, op = .claimNext world leaseMs ∧ store.oldest = some row ∧
      store.sources.get row.id = some source ∧
      (store.claimNext world leaseMs).1 =
        .ok (some (jobOf ((claimed world leaseMs).set row) source.source)) ∧
      op.issues store = [⟨row.id, UInt32.ofNat (row.attempt + 1)⟩] ∧
      op.after store = store.set row.id (claimed world leaseMs) := by
  cases op with
  | claimNext world leaseMs =>
    rcases store.claimNext_cases world leaseMs with
      ⟨_, idle⟩ | ⟨row, source, oldest, stored, done⟩
    · left
      cases reply : (store.claimNext world leaseMs).1 with
      | error e => simp only [issues, reply]
      | ok claimed =>
        cases claimed with
        | none => simp only [issues, reply]
        | some job => exact absurd reply (idle job)
    · right
      refine ⟨world, leaseMs, row, source, rfl, oldest, stored, by rw [done], ?_, ?_⟩
      · simp only [issues, done]
        rfl
      · simp only [after, done]
  | _ => exact Or.inl rfl

/-- A call writes under a token, or is one of the other four. -/
@[elab_as_elim]
theorem token_cases {motive : Op → Prop}
    (writes : ∀ op token, op.token? = some token → motive op)
    (insert : ∀ world new, motive (.insert world new))
    (claimNext : ∀ world leaseMs, motive (.claimNext world leaseMs))
    (sweep : ∀ world maxAttempts, motive (.sweep world maxAttempts))
    (requeueInflight : ∀ world, motive (.requeueInflight world)) (op : Op) : motive op := by
  cases op with
  | progress world token status testsDone testsTotal leaseMs => exact writes _ token rfl
  | finish world token problemVersion judgeVersion result => exact writes _ token rfl
  | failAttempt world token maxAttempts error => exact writes _ token rfl
  | insert world new => exact insert world new
  | claimNext world leaseMs => exact claimNext world leaseMs
  | sweep world maxAttempts => exact sweep world maxAttempts
  | requeueInflight world => exact requeueInflight world

/-- **What a call does to a row that exists.** -/
theorem row_cases (op : Op) {id : String} {row : Row} (found : store.submissions.get id = some row) :
    ∃ next, (op.after store).submissions.get id = some next ∧ RowStep op row next := by
  cases op using token_cases with
  | writes op token writes =>
    rcases write_cases store writes with ⟨_, same⟩ | ⟨own, change, _, held, _, done, step⟩
    · exact ⟨row, by rw [same, found], .same⟩
    · rw [done, Store.get_set, found]
      by_cases key : token.id = id
      · rw [if_pos key]
        rw [key, found] at held
        cases held
        exact ⟨_, rfl, step⟩
      · rw [if_neg key]
        exact ⟨row, rfl, .same⟩
  | insert world new =>
    simp only [after]
    rcases store.insert_cases world new with ⟨same, _⟩ | ⟨_, done, inserted⟩
    · exact ⟨row, by rw [same, found], .same⟩
    · have other : world.newId ≠ id := by
        intro key
        rw [← key, inserted.fresh] at found
        cases found
      exact ⟨row, by rw [done, inserted.row, if_neg other, found], .same⟩
  | claimNext world leaseMs =>
    simp only [after]
    rcases store.claimNext_cases world leaseMs with ⟨same, _⟩ | ⟨own, source, oldest, _, done⟩
    · exact ⟨row, by rw [same, found], .same⟩
    · obtain ⟨held, queued, _⟩ := Store.oldest_spec oldest
      rw [done, Store.get_set, found]
      by_cases key : own.id = id
      · rw [if_pos key]
        rw [key, found] at held
        cases held
        exact ⟨_, rfl, .claimed queued⟩
      · rw [if_neg key]
        exact ⟨row, rfl, .same⟩
  | sweep world maxAttempts =>
    simp only [after]
    rcases store.sweep_cases world maxAttempts with ⟨e, failed⟩ | ⟨_, done, _, rows⟩
    · exact ⟨row, by rw [failed, found], .same⟩
    · refine ⟨_, by rw [done, rows, found]; rfl, ?_⟩
      unfold sweptRow
      by_cases lost : hopeless world.now maxAttempts row = true
      · rw [if_pos lost]
        exact .sweptUp lost
      · rw [if_neg lost]
        by_cases late : expired world.now row = true
        · rw [if_pos late]
          exact .sweptBack (by rw [recoverable_iff, late, Bool.eq_false_iff.mpr lost]; rfl)
        · rw [if_neg late]
          exact .same
  | requeueInflight world =>
    simp only [after]
    rcases store.requeueInflight_cases world with ⟨e, failed⟩ | ⟨works, done⟩
    · exact ⟨row, by rw [failed, found], .same⟩
    · refine ⟨if row.status.inFlight then (requeued Row.error).set row else row,
        by rw [done, Store.get_update, found]; rfl, ?_⟩
      by_cases flying : row.status.inFlight = true
      · rw [if_pos flying]
        exact .restarted works flying
      · rw [if_neg flying]
        exact .same

/-- **A row that did not exist was inserted.** -/
theorem row_new {id : String} {row : Row} (absent : store.submissions.get id = none)
    (found : (op.after store).submissions.get id = some row) :
    ∃ world new, op = .insert world new ∧ world.newId = id ∧ row = queuedRow world new ∧
      Store.Inserted store world new (op.after store) := by
  cases op using token_cases with
  | writes op token writes =>
    rcases write_cases store writes with ⟨_, same⟩ | ⟨_, change, _, _, _, done, _⟩
    · rw [same, absent] at found
      cases found
    · rw [done, Store.get_set, absent] at found
      split at found <;> cases found
  | insert world new =>
    simp only [after] at found
    rcases store.insert_cases world new with ⟨same, _⟩ | ⟨_, done, inserted⟩
    · rw [same, absent] at found
      cases found
    · rw [done, inserted.row] at found
      by_cases key : world.newId = id
      · rw [if_pos key] at found
        cases found
        exact ⟨world, new, rfl, key, rfl, by simp only [after, done]; exact inserted⟩
      · rw [if_neg key, absent] at found
        cases found
  | claimNext world leaseMs =>
    simp only [after] at found
    rcases store.claimNext_cases world leaseMs with ⟨same, _⟩ | ⟨_, _, _, _, done⟩
    · rw [same, absent] at found
      cases found
    · rw [done, Store.get_set, absent] at found
      split at found <;> cases found
  | sweep world maxAttempts =>
    simp only [after] at found
    rcases store.sweep_cases world maxAttempts with ⟨e, failed⟩ | ⟨_, done, _, rows⟩
    · rw [failed, absent] at found
      cases found
    · rw [done, rows, absent] at found
      cases found
  | requeueInflight world =>
    simp only [after] at found
    rcases store.requeueInflight_cases world with ⟨e, failed⟩ | ⟨_, done⟩
    · rw [failed, absent] at found
      cases found
    · rw [done, Store.get_update, absent] at found
      cases found

/-- **Only an insertion changes the sources.** -/
theorem sources_cases (store : Store) (op : Op) : (op.after store).sources = store.sources ∨
    ∃ world new, op = .insert world new ∧ Store.Inserted store world new (op.after store) := by
  cases op using token_cases with
  | writes op token writes =>
    left
    rcases write_cases store writes with ⟨_, same⟩ | ⟨_, change, _, _, _, done, _⟩
    · rw [same]
    · rw [done, Store.sources_set]
  | insert world new =>
    simp only [after]
    rcases store.insert_cases world new with ⟨same, _⟩ | ⟨_, done, inserted⟩
    · exact Or.inl (by rw [same])
    · exact Or.inr ⟨world, new, rfl, by rw [done]; exact inserted⟩
  | claimNext world leaseMs =>
    left
    simp only [after]
    rcases store.claimNext_cases world leaseMs with ⟨same, _⟩ | ⟨_, _, _, _, done⟩
    · rw [same]
    · rw [done, Store.sources_set]
  | sweep world maxAttempts =>
    left
    simp only [after]
    rcases store.sweep_cases world maxAttempts with ⟨e, failed⟩ | ⟨_, done, same, _⟩
    · rw [failed]
    · rw [done, same]
  | requeueInflight world =>
    left
    simp only [after]
    rcases store.requeueInflight_cases world with ⟨e, failed⟩ | ⟨_, done⟩
    · rw [failed]
    · rw [done, Store.sources_update]

end Op

/-! ### Invariants of rows -/

/-- **A property of rows that new rows have and that every permitted call keeps.** -/
theorem rows_invariant {holds : Row → Prop} {permits : Queue → Op → Prop}
    (new : ∀ world new, holds (queuedRow world new))
    (step : ∀ state op row next, op.Permitted state.issued → permits state op →
      state.store.submissions.get row.id = some row → holds row → RowStep op row next →
        holds next) :
    (queue.guarded permits).Invariant fun state =>
      ∀ id row, state.store.submissions.get id = some row → holds row where
  start := by
    rintro _ rfl id row found
    cases found
  step := by
    rintro state op after rows ⟨guard, permitted, rfl⟩ id next found
    cases held : state.store.submissions.get id with
    | none =>
      obtain ⟨world, submission, _, _, rfl, _⟩ := Op.row_new held found
      exact new world submission
    | some row =>
      obtain ⟨next', found', moved⟩ := Op.row_cases op held
      cases found.symm.trans found'
      refine step state op row next permitted guard ?_ (rows id row held) moved
      rw [Table.get_key held]
      exact held

/-! ### A short run -/

/-- A call at a given time, on a store that works. -/
def worldAt (now : Int64) : World := ⟨now, "s1", fun _ => none⟩

def sampleSubmission : NewSubmission where
  userId := "local"
  problem := "p"
  problemVersion := "v1"
  language := "python"
  source := "print(1)"
  testsTotal := 3
  idempotencyKey := none

def sampleResult : JudgeResult where
  verdict := .accepted
  timeMs := 12
  memoryKb := 3456
  failedTest := none
  compileOutput := none
  tests := []
  testsTotal := 3

/-- The calls, one after the other. -/
def Queue.trace : Queue → List Op → List (Transition Queue Op) → List (Transition Queue Op)
  | _, [], steps => steps
  | state, op :: ops, steps => trace (state.perform op) ops (⟨state, op, state.perform op⟩ :: steps)

/-- Every call is one that workers may make. -/
def Queue.Permits : Queue → List Op → Prop
  | _, [] => True
  | state, op :: ops => op.Permitted state.issued ∧ Permits (state.perform op) ops

theorem Queue.run_trace {state : Queue} {ops : List Op} {steps : List (Transition Queue Op)}
    (run : queue.Run steps state) (permits : state.Permits ops) :
    queue.Run (state.trace ops steps) (ops.foldl perform state) := by
  induction ops generalizing state steps with
  | nil => exact run
  | cons op ops ih => exact ih (run.next ⟨permits.1, rfl⟩) permits.2

/-- A submission is stored, claimed and judged. -/
def sampleOps (result : JudgeResult) : List Op :=
  [.insert (worldAt 0) sampleSubmission, .claimNext (worldAt 10) 60000,
    .finish (worldAt 20) ⟨"s1", 1⟩ "v1" "j" result]

theorem sampleOps_permitted (result : JudgeResult) :
    Queue.Permits ⟨.empty, []⟩ (sampleOps result) := by
  refine ⟨trivial, trivial, ?_, trivial⟩
  show (⟨"s1", 1⟩ : Token) ∈ Queue.issued _
  decide

theorem sampleOps_run (result : JudgeResult) :
    queue.Run (Queue.trace ⟨.empty, []⟩ (sampleOps result) [])
      ((sampleOps result).foldl Queue.perform ⟨.empty, []⟩) :=
  Queue.run_trace (.start rfl) (sampleOps_permitted result)

end Codexec.Server
