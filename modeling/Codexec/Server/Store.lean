/-
**The submission store**: one table that is also the durable job queue, and one for the sources.

Every operation is a function of the tables, of its arguments and of what the call gets from outside
(`World`: the clock, a fresh id, statements that fail). It returns its reply and the tables after it.
The tables carry what the schema enforces: primary keys, the unique idempotency key, the foreign key
of the sources. A `Change` is the `SET` part of an update; none of them writes a key.
-/

import Codexec.Judge.Json
import Codexec.Library.Table
import Mathlib.Data.String.Basic
import Mathlib.Data.Prod.Lex

namespace Codexec.Server

open Codexec Codexec.Library

inductive Status
  | queued
  | compiling
  | running
  | done
  deriving DecidableEq, Repr

namespace Status

/-- The stored form. -/
def asStr : Status → String
  | .queued => "QUEUED"
  | .compiling => "COMPILING"
  | .running => "RUNNING"
  | .done => "DONE"

def parse (text : String) : Status :=
  if text = "COMPILING" then .compiling
  else if text = "RUNNING" then .running
  else if text = "DONE" then .done
  else .queued

theorem parse_asStr (status : Status) : parse status.asStr = status := by
  cases status <;> decide

/-- `status IN ('COMPILING', 'RUNNING')` -/
def inFlight : Status → Bool
  | .compiling => true
  | .running => true
  | _ => false

end Status

/-- A row of `submissions`. The status column holds `status.asStr`. -/
structure Row where
  id : String
  userId : String
  problem : String
  problemVersion : String
  language : String
  status : Status
  verdict : Option String := none
  timeMs : Option Int64 := none
  memoryKb : Option Int64 := none
  failedTest : Option String := none
  testsDone : Nat := 0
  testsTotal : Nat := 0
  testResults : Option String := none
  compileOutput : Option String := none
  /-- Last infrastructure error. -/
  error : Option String := none
  judgeVersion : Option String := none
  attempt : Nat := 0
  leaseUntilMs : Option Int64 := none
  idempotencyKey : Option String := none
  createdAtMs : Int64
  judgedAtMs : Option Int64 := none
  deriving DecidableEq

/-- A row of `submission_sources`. -/
structure Source where
  submissionId : String
  source : String
  deriving DecidableEq

structure Submission where
  id : String
  problem : String
  problemVersion : String
  language : String
  status : Status
  verdict : Option Verdict
  timeMs : Option UInt64
  memoryKb : Option UInt64
  failedTest : Option String
  testsDone : Nat
  testsTotal : Nat
  compileOutput : Option String
  tests : Option (List TestResult)
  attempt : UInt32
  judgeVersion : Option String
  createdAtMs : Int64
  judgedAtMs : Option Int64
  deriving DecidableEq

structure NewSubmission where
  userId : String
  problem : String
  problemVersion : String
  language : String
  source : String
  testsTotal : Nat
  idempotencyKey : Option String

/-- A claimed job. `attempt` is the fencing token for every later write. -/
structure Job where
  id : String
  problem : String
  language : String
  source : String
  attempt : UInt32
  deriving DecidableEq

structure SweepReport where
  requeued : Nat := 0
  failed : Nat := 0
  deriving DecidableEq

inductive StoreError
  | sqlite (message : String)
  | queryReturnedNoRows
  deriving DecidableEq

/-- `row_to_submission` -/
def Row.toSubmission (row : Row) : Submission where
  id := row.id
  problem := row.problem
  problemVersion := row.problemVersion
  language := row.language
  status := row.status
  verdict := row.verdict.bind Verdict.fromCode
  timeMs := row.timeMs.map Int64.toUInt64
  memoryKb := row.memoryKb.map Int64.toUInt64
  failedTest := row.failedTest
  testsDone := row.testsDone
  testsTotal := row.testsTotal
  compileOutput := row.compileOutput
  tests := row.testResults.bind testsFromJson
  attempt := UInt32.ofNat row.attempt
  judgeVersion := row.judgeVersion
  createdAtMs := row.createdAtMs
  judgedAtMs := row.judgedAtMs

/-! ### The tables -/

/-- The two tables, with the constraints of the schema. -/
structure Store where
  submissions : Table Row Row.id
  sources : Table Source Source.submissionId
  /-- `idempotency_key TEXT UNIQUE` -/
  uniqueKeys : (submissions.rows.filterMap Row.idempotencyKey).Nodup
  /-- `REFERENCES submissions(id)` -/
  referenced : ∀ source ∈ sources.rows, (submissions.get source.submissionId).isSome

/-- The `SET` part of an update. -/
structure Change where
  set : Row → Row
  keepsId : ∀ row, (set row).id = row.id
  keepsKey : ∀ row, (set row).idempotencyKey = row.idempotencyKey

/-- What a call on the store gets from outside. -/
structure World where
  now : Int64
  newId : String
  /-- The statements of the call that fail, by number. -/
  fault : Nat → Option StoreError

/-- Statement number `n` of a call. -/
def World.statement (world : World) (n : Nat) : Except StoreError Unit :=
  match world.fault n with
  | some e => .error e
  | none => .ok ()

namespace Store

/-- The store of a new database. -/
def empty : Store :=
  ⟨Table.empty, Table.empty, List.nodup_nil, fun _ inside => absurd inside List.not_mem_nil⟩

section Statements

variable (self : Store)

/-- `UPDATE submissions SET change WHERE selects` -/
def update (selects : Row → Bool) (change : Change) : Store where
  submissions := self.submissions.update selects change.set change.keepsId
  sources := self.sources
  uniqueKeys := by
    have same : (self.submissions.update selects change.set change.keepsId).rows.filterMap
        Row.idempotencyKey = self.submissions.rows.filterMap Row.idempotencyKey := by
      simp only [Table.update, List.filterMap_map]
      congr 1
      funext row
      simp only [Function.comp_apply]
      split
      · exact change.keepsKey row
      · rfl
    rw [same]
    exact self.uniqueKeys
  referenced := by
    intro source inside
    rw [Table.get_update, Option.isSome_map]
    exact self.referenced source inside

/-- The row with an idempotency key. -/
def withKey (key : String) : Option Row :=
  self.submissions.rows.find? fun row => row.idempotencyKey = some key

/-- `INSERT INTO submissions` -/
def insertRow (row : Row) : Except StoreError Store :=
  if free : self.submissions.get row.id = none ∧
      ∀ key ∈ row.idempotencyKey, self.withKey key = none then
    .ok
      { submissions := self.submissions.insert row free.1
        sources := self.sources
        uniqueKeys := by
          simp only [Table.insert, List.filterMap_append]
          refine List.Nodup.append self.uniqueKeys ?_ ?_
          · cases held : row.idempotencyKey with
            | none => simp [held]
            | some key => simp [held]
          · intro key inside new
            obtain ⟨old, stored, held⟩ := List.mem_filterMap.mp inside
            obtain ⟨_, member, held'⟩ := List.mem_filterMap.mp new
            rw [List.mem_singleton] at member
            subst member
            have absent := List.find?_eq_none.mp (free.2 key held') old stored
            rw [decide_eq_true_eq] at absent
            exact absent held
        referenced := by
          intro source inside
          rw [Table.get_insert]
          split
          · rfl
          · exact self.referenced source inside }
  else .error (.sqlite "UNIQUE constraint failed")

/-- `INSERT INTO submission_sources` -/
def insertSource (source : Source) : Except StoreError Store :=
  if free : self.sources.get source.submissionId = none ∧
      (self.submissions.get source.submissionId).isSome then
    .ok
      { submissions := self.submissions
        sources := self.sources.insert source free.1
        uniqueKeys := self.uniqueKeys
        referenced := by
          intro other inside
          rcases List.mem_append.mp inside with old | new
          · exact self.referenced other old
          · rw [List.mem_singleton] at new
            rw [new]
            exact free.2 }
  else .error (.sqlite "constraint failed")

/-- A transaction that ends in an error is rolled back. -/
def transaction {α : Type} (body : Except StoreError (α × Store)) : Except StoreError α × Store :=
  match body with
  | .ok (value, after) => (.ok value, after)
  | .error e => (.error e, self)

/-- One update on its own, with a reply computed from the number of rows it changed. -/
def execute {α : Type} (world : World) (selects : Row → Bool) (change : Change) (reply : Nat → α) :
    Except StoreError α × Store :=
  match world.statement 0 with
  | .error e => (.error e, self)
  | .ok () => (.ok (reply (self.submissions.affected selects)), self.update selects change)

end Statements

end Store

/-! ### What updates write, and where -/

/-- The row of a new submission. -/
def queuedRow (world : World) (new : NewSubmission) : Row where
  id := world.newId
  userId := new.userId
  problem := new.problem
  problemVersion := new.problemVersion
  language := new.language
  status := .queued
  testsTotal := new.testsTotal
  idempotencyKey := new.idempotencyKey
  createdAtMs := world.now

/-- A claim. The lease is added in `i64`, which wraps as in a release build. -/
def claimed (world : World) (leaseMs : Int64) : Change where
  set row :=
    { row with
      status := .compiling
      attempt := row.attempt + 1
      leaseUntilMs := some (world.now + leaseMs)
      testsDone := 0 }
  keepsId _ := rfl
  keepsKey _ := rfl

def progressed (world : World) (status : Status) (testsDone testsTotal : Nat) (leaseMs : Int64) :
    Change where
  set row :=
    { row with
      status := status
      testsDone := testsDone
      testsTotal := testsTotal
      leaseUntilMs := some (world.now + leaseMs) }
  keepsId _ := rfl
  keepsKey _ := rfl

def finished (world : World) (problemVersion judgeVersion : String) (result : JudgeResult) :
    Change where
  set row :=
    { row with
      status := .done
      verdict := some result.verdict.code
      timeMs := some result.timeMs.toInt64
      memoryKb := some result.memoryKb.toInt64
      failedTest := result.failedTest
      testResults := some (testsToJson result.tests)
      compileOutput := result.compileOutput
      testsDone := result.tests.length
      testsTotal := result.testsTotal
      problemVersion := problemVersion
      judgeVersion := some judgeVersion
      judgedAtMs := some world.now
      leaseUntilMs := none
      error := none }
  keepsId _ := rfl
  keepsKey _ := rfl

def givenUp (world : World) (error : Row → String) : Change where
  set row :=
    { row with
      status := .done
      verdict := some "IE"
      error := some (error row)
      judgedAtMs := some world.now
      leaseUntilMs := none }
  keepsId _ := rfl
  keepsKey _ := rfl

/-- Back to the queue, with the error that put it there. -/
def requeued (error : Row → Option String) : Change where
  set row := { row with status := .queued, error := error row, leaseUntilMs := none }
  keepsId _ := rfl
  keepsKey _ := rfl

/-- `WHERE id = ? AND attempt = ? AND holds` -/
def owned (id : String) (attempt : UInt32) (holds : Status → Bool) (row : Row) : Bool :=
  decide (row.id = id) && (decide (row.attempt = attempt.toNat) && holds row.status)

/-- `status IN ('COMPILING', 'RUNNING') AND lease_until_ms < ?`; without a lease the comparison is
`NULL` and the row is not selected. -/
def expired (now : Int64) (row : Row) : Bool :=
  row.status.inFlight && row.leaseUntilMs.any fun lease => decide (lease < now)

/-- Expired, and out of attempts. -/
def hopeless (now : Int64) (maxAttempts : UInt32) (row : Row) : Bool :=
  expired now row && decide (maxAttempts.toNat ≤ row.attempt)

/-- `COALESCE(error, 'lease expired')` -/
def sweepError (row : Row) : String := row.error.getD "lease expired"

/-- The queue is served in this order. -/
def rank (row : Row) : Int ×ₗ String := toLex (row.createdAtMs.toInt, row.id)

/-- The job of a row that was just claimed. -/
def jobOf (row : Row) (source : String) : Job where
  id := row.id
  problem := row.problem
  language := row.language
  source := source
  attempt := UInt32.ofNat row.attempt

/-! ### The operations -/

namespace Store

variable (self : Store)

/-- `Store::insert` -/
def insert (world : World) (new : NewSubmission) : Except StoreError (Submission × Bool) × Store :=
  self.transaction do
    world.statement 0
    match new.idempotencyKey.bind self.withKey with
    | some existing => return ((existing.toSubmission, false), self)
    | none =>
      world.statement 1
      let inserted ← self.insertRow (queuedRow world new)
      world.statement 2
      let sourced ← inserted.insertSource ⟨world.newId, new.source⟩
      world.statement 3
      match sourced.submissions.get world.newId with
      | none => throw .queryReturnedNoRows
      | some row =>
        world.statement 4
        return ((row.toSubmission, true), sourced)

/-- `Store::get` -/
def get (world : World) (id : String) : Except StoreError (Option Submission) :=
  match world.statement 0 with
  | .error e => .error e
  | .ok () => .ok ((self.submissions.get id).map Row.toSubmission)

/-- The oldest queued submission. -/
def oldest : Option Row := self.submissions.first (fun row => decide (row.status = .queued)) rank

/-- `Store::claim_next` -/
def claimNext (world : World) (leaseMs : Int64) : Except StoreError (Option Job) × Store :=
  self.transaction do
    world.statement 0
    match self.oldest with
    | none => return (none, self)
    | some row =>
      let updated := self.update (fun other => decide (other.id = row.id)) (claimed world leaseMs)
      world.statement 1
      match updated.sources.get row.id with
      | none => throw .queryReturnedNoRows
      | some source =>
        world.statement 2
        return (some (jobOf ((claimed world leaseMs).set row) source.source), updated)

/-- `Store::progress` -/
def progress (world : World) (id : String) (attempt : UInt32) (status : Status)
    (testsDone testsTotal : Nat) (leaseMs : Int64) : Except StoreError Bool × Store :=
  self.execute world (owned id attempt Status.inFlight)
    (progressed world status testsDone testsTotal leaseMs) (· == 1)

/-- `Store::finish` -/
def finish (world : World) (id : String) (attempt : UInt32) (problemVersion judgeVersion : String)
    (result : JudgeResult) : Except StoreError Bool × Store :=
  self.execute world (owned id attempt (· != .done))
    (finished world problemVersion judgeVersion result) (· == 1)

/-- `Store::fail_attempt` -/
def failAttempt (world : World) (id : String) (attempt maxAttempts : UInt32) (error : String) :
    Except StoreError (Option Status) × Store :=
  if maxAttempts ≤ attempt then
    self.execute world (owned id attempt (· != .done)) (givenUp world fun _ => error)
      fun n => if n = 1 then some .done else none
  else
    self.execute world (owned id attempt (· != .done)) (requeued fun _ => some error)
      fun n => if n = 1 then some .queued else none

/-- `Store::sweep` -/
def sweep (world : World) (maxAttempts : UInt32) : Except StoreError SweepReport × Store :=
  self.transaction do
    world.statement 0
    let swept := self.update (hopeless world.now maxAttempts) (givenUp world sweepError)
    world.statement 1
    let after := swept.update (expired world.now) (requeued Row.error)
    world.statement 2
    return (⟨swept.submissions.affected (expired world.now),
      self.submissions.affected (hopeless world.now maxAttempts)⟩, after)

/-- `Store::requeue_inflight` -/
def requeueInflight (world : World) : Except StoreError Nat × Store :=
  self.execute world (fun row => row.status.inFlight) (requeued Row.error) fun n => n

end Store

end Codexec.Server
