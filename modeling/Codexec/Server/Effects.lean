/-
**What the operations of the store do.**

One lemma for each operation says which replies it can give and what the tables are after it, so
that later modules never unfold an operation.
-/

import Codexec.Server.Store

namespace Codexec.Server

open Codexec Codexec.Library

namespace World

variable {world : World} {n : Nat}

theorem statement_of_fault {e : StoreError} (fault : world.fault n = some e) :
    world.statement n = .error e := by
  rw [statement, fault]

theorem statement_of_none (fault : world.fault n = none) : world.statement n = .ok () := by
  rw [statement, fault]

theorem works_of_statement (done : world.statement n = .ok ()) : world.fault n = none := by
  unfold statement at done
  cases fault : world.fault n with
  | none => rfl
  | some e =>
    rw [fault] at done
    cases done

theorem fault_of_statement {e : StoreError} (failed : world.statement n = .error e) :
    world.fault n = some e := by
  unfold statement at failed
  cases fault : world.fault n with
  | some e' =>
    rw [fault] at failed
    cases failed
    rfl
  | none =>
    rw [fault] at failed
    cases failed

end World

namespace Store

variable {self : Store} {world : World}

/-! ### One update -/

section Update

variable {selects : Row → Bool} {change : Change} {id : String}

theorem get_update : (self.update selects change).submissions.get id =
    (self.submissions.get id).map fun row => if selects row then change.set row else row :=
  Table.get_update _ selects change.set change.keepsId id

@[simp] theorem sources_update : (self.update selects change).sources = self.sources := rfl

/-- **An update that fails changes nothing.** -/
theorem execute_cases {α : Type} (self : Store) (world : World) (selects : Row → Bool)
    (change : Change) (reply : Nat → α) :
    (∃ e, self.execute world selects change reply = (.error e, self)) ∨
      world.fault 0 = none ∧ self.execute world selects change reply =
        (.ok (reply (self.submissions.affected selects)), self.update selects change) := by
  unfold execute
  cases fault : world.fault 0 with
  | some e =>
    left
    exact ⟨e, by rw [World.statement_of_fault fault]⟩
  | none =>
    right
    exact ⟨rfl, by rw [World.statement_of_none fault]⟩

end Update

/-! ### One row -/

/-- The row under an id, rewritten. -/
def set (self : Store) (id : String) (change : Change) : Store :=
  self.update (fun row => decide (row.id = id)) change

@[simp] theorem sources_set {id : String} {change : Change} :
    (self.set id change).sources = self.sources := rfl

theorem get_set {id other : String} {change : Change} :
    (self.set id change).submissions.get other = if id = other
      then (self.submissions.get other).map change.set else self.submissions.get other := by
  rw [set, get_update]
  cases found : self.submissions.get other with
  | none => simp
  | some row =>
    have key : row.id = other := Table.get_key found
    rw [Option.map_some, Option.map_some, key]
    by_cases same : id = other
    · simp [same]
    · simp [same, Ne.symm same]

@[ext] theorem ext {first second : Store} (submissions : first.submissions = second.submissions)
    (sources : first.sources = second.sources) : first = second := by
  cases first
  cases second
  cases submissions
  cases sources
  rfl

/-- An update that agrees with another on every row. -/
theorem update_congr {selects selects' : Row → Bool} {change : Change}
    (same : ∀ row ∈ self.submissions.rows, selects row = selects' row) :
    self.update selects change = self.update selects' change := by
  apply ext
  · apply Table.ext
    exact List.map_congr_left fun row inside => by rw [same row inside]
  · rfl

theorem update_of_none {selects : Row → Bool} {change : Change}
    (none : ∀ row ∈ self.submissions.rows, selects row = false) :
    self.update selects change = self := by
  apply ext
  · apply Table.ext
    have same : ∀ row ∈ self.submissions.rows,
        (if selects row then change.set row else row) = id row := by
      intro row inside
      rw [none row inside]
      rfl
    exact (List.map_congr_left same).trans (List.map_id _)
  · rfl

theorem affected_owned {id : String} {attempt : UInt32} {holds : Status → Bool} :
    self.submissions.affected (owned id attempt holds) = 1 ↔ ∃ row,
      self.submissions.get id = some row ∧ row.attempt = attempt.toNat ∧
        holds row.status = true := by
  have one : self.submissions.affected (owned id attempt holds) = 1 ↔ _ :=
    Table.affected_key_eq_one
  simp only [Bool.and_eq_true, decide_eq_true_eq] at one
  exact one

/-- **A worker's write**: it fails, or its token and status select the row, or it does nothing. -/
theorem execute_owned_cases {α : Type} (self : Store) (world : World) (id : String) (attempt : UInt32)
    (holds : Status → Bool) (change : Change) (reply : Nat → α) :
    (∃ e, self.execute world (owned id attempt holds) change reply = (.error e, self)) ∨
      (∃ row, self.submissions.get id = some row ∧ row.attempt = attempt.toNat ∧
        holds row.status = true ∧ self.execute world (owned id attempt holds) change reply =
          (.ok (reply 1), self.set id change)) ∨
      (∀ row, self.submissions.get id = some row → row.attempt = attempt.toNat →
        holds row.status = false) ∧
        self.execute world (owned id attempt holds) change reply = (.ok (reply 0), self) := by
  rcases self.execute_cases world (owned id attempt holds) change reply with failed | ⟨_, done⟩
  · exact Or.inl failed
  · right
    rw [done]
    by_cases selected : ∃ row, self.submissions.get id = some row ∧ row.attempt = attempt.toNat ∧
        holds row.status = true
    · left
      obtain ⟨row, found, token, status⟩ := selected
      have count : self.submissions.affected (owned id attempt holds) = 1 :=
        affected_owned.mpr ⟨row, found, token, status⟩
      have same : self.update (owned id attempt holds) change = self.set id change := by
        refine update_congr fun other inside => ?_
        by_cases key : other.id = id
        · have this : self.submissions.get id = some other := by
            rw [← key]
            exact Table.get_of_mem inside
          cases found.symm.trans this
          simp [owned, key, token, status]
        · simp [owned, key]
      exact ⟨row, found, token, status, by rw [count, same]⟩
    · right
      have passed : ∀ row ∈ self.submissions.rows, owned id attempt holds row = false := by
        intro row inside
        by_contra chosen
        simp only [owned, Bool.not_eq_false, Bool.and_eq_true, decide_eq_true_eq] at chosen
        obtain ⟨rfl, token, status⟩ := chosen
        exact selected ⟨row, Table.get_of_mem inside, token, status⟩
      have count : self.submissions.affected (owned id attempt holds) = 0 := by
        rw [Table.affected, List.countP_eq_zero]
        exact fun row inside => by simp [passed row inside]
      refine ⟨?_, by rw [count, update_of_none passed]⟩
      intro row found token
      by_contra status
      exact selected ⟨row, found, token, by simpa using status⟩

/-- **A write with the token of the row applies**, if the status allows it and the store works. -/
theorem execute_owned_of_row {α : Type} {id : String} {attempt : UInt32} {row : Row}
    (works : world.fault 0 = none) (found : self.submissions.get id = some row)
    (own : row.attempt = attempt.toNat) (holds : Status → Bool) (allowed : holds row.status = true)
    (change : Change) (reply : Nat → α) :
    self.execute world (owned id attempt holds) change reply =
      (.ok (reply 1), self.set id change) := by
  rcases self.execute_owned_cases world id attempt holds change reply with
    ⟨e, failed⟩ | ⟨_, _, _, _, done⟩ | ⟨passed, _⟩
  · rw [execute, World.statement_of_none works] at failed
    cases failed
  · exact done
  · rw [passed row found own] at allowed
    cases allowed

theorem execute_of_fault {α : Type} (fails : world.fault 0 ≠ none) (selects : Row → Bool)
    (change : Change) (reply : Nat → α) : (self.execute world selects change reply).2 = self := by
  rcases self.execute_cases world selects change reply with ⟨e, failed⟩ | ⟨works, _⟩
  · rw [failed]
  · exact absurd works fails

/-- A failed attempt is recorded by a statement that works. -/
theorem failAttempt_works (self : Store) (world : World) (id : String)
    (attempt maxAttempts : UInt32) (error : String) :
    (self.failAttempt world id attempt maxAttempts error).2 = self ∨ world.fault 0 = none := by
  unfold failAttempt
  split
  · rcases self.execute_cases world _ _ _ with ⟨e, failed⟩ | ⟨works, _⟩
    · exact Or.inl (congrArg Prod.snd failed)
    · exact Or.inr works
  · rcases self.execute_cases world _ _ _ with ⟨e, failed⟩ | ⟨works, _⟩
    · exact Or.inl (congrArg Prod.snd failed)
    · exact Or.inr works

/-! ### Transactions -/

/-- **A transaction that reports an error leaves the tables as they were.** -/
theorem transaction_cases {α : Type} (body : Except StoreError (α × Store)) :
    (∃ e, self.transaction body = (.error e, self)) ∨
      ∃ value after, body = .ok (value, after) ∧ self.transaction body = (.ok value, after) := by
  cases body with
  | error e => exact Or.inl ⟨e, rfl⟩
  | ok done => exact Or.inr ⟨done.1, done.2, rfl, rfl⟩

/-- **A transaction that reports an error has left the tables as they were.** -/
theorem transaction_error {α : Type} {body : Except StoreError (α × Store)} {e : StoreError}
    (failed : (self.transaction body).1 = .error e) :
    body = .error e ∧ (self.transaction body).2 = self := by
  cases body with
  | error e' =>
    cases failed
    exact ⟨rfl, rfl⟩
  | ok done => cases failed

theorem of_bind_eq_error {α β : Type} {first : Except StoreError α}
    {next : α → Except StoreError β} {e : StoreError} (failed : (first >>= next) = .error e) :
    first = .error e ∨ ∃ middle, first = .ok middle ∧ next middle = .error e := by
  cases first with
  | error e' =>
    cases failed
    exact Or.inl rfl
  | ok middle => exact Or.inr ⟨middle, rfl, failed⟩

theorem of_bind_eq_ok {ε α β : Type} {first : Except ε α} {next : α → Except ε β} {value : β}
    (done : (first >>= next) = .ok value) :
    ∃ middle, first = .ok middle ∧ next middle = .ok value := by
  cases first with
  | error e => cases done
  | ok middle => exact ⟨middle, rfl, done⟩

/-! ### Insertion -/

/-- What a successful insertion adds. -/
structure Inserted (before : Store) (world : World) (new : NewSubmission) (after : Store) : Prop where
  fresh : before.submissions.get world.newId = none
  unsourced : before.sources.get world.newId = none
  row : ∀ id, after.submissions.get id =
    if world.newId = id then some (queuedRow world new) else before.submissions.get id
  source : ∀ id, after.sources.get id =
    if world.newId = id then some ⟨world.newId, new.source⟩ else before.sources.get id
  rows : after.submissions.rows = before.submissions.rows ++ [queuedRow world new]
  sources : after.sources.rows = before.sources.rows ++ [⟨world.newId, new.source⟩]

theorem insertRow_ok {row : Row} {after : Store} (inserted : self.insertRow row = .ok after) :
    ∃ free : self.submissions.get row.id = none,
      after.submissions = self.submissions.insert row free ∧ after.sources = self.sources := by
  unfold insertRow at inserted
  split at inserted
  · rename_i free
    cases inserted
    exact ⟨free.1, rfl, rfl⟩
  · cases inserted

theorem insertSource_ok {source : Source} {after : Store}
    (inserted : self.insertSource source = .ok after) :
    ∃ free : self.sources.get source.submissionId = none,
      after.sources = self.sources.insert source free ∧ after.submissions = self.submissions := by
  unfold insertSource at inserted
  split at inserted
  · rename_i free
    cases inserted
    exact ⟨free.1, rfl, rfl⟩
  · cases inserted

/-- **An insertion adds one queued row and its source, or changes nothing.** -/
theorem insert_cases (self : Store) (world : World) (new : NewSubmission) :
    (self.insert world new).2 = self ∧ (∀ sub, (self.insert world new).1 ≠ .ok (sub, true)) ∨
      ∃ after, self.insert world new = (.ok ((queuedRow world new).toSubmission, true), after) ∧
        Inserted self world new after := by
  unfold insert
  rcases self.transaction_cases _ with ⟨e, failed⟩ | ⟨value, after, ran, done⟩
  · left
    rw [failed]
    exact ⟨rfl, fun sub same => by cases same⟩
  · rw [done]
    obtain ⟨_, _, ran⟩ := of_bind_eq_ok ran
    cases existing : new.idempotencyKey.bind self.withKey with
    | some row =>
      rw [existing] at ran
      cases ran
      left
      exact ⟨rfl, fun sub same => by cases same⟩
    | none =>
      rw [existing] at ran
      obtain ⟨_, _, ran⟩ := of_bind_eq_ok ran
      obtain ⟨inserted, row, ran⟩ := of_bind_eq_ok ran
      obtain ⟨_, _, ran⟩ := of_bind_eq_ok ran
      obtain ⟨sourced, source, ran⟩ := of_bind_eq_ok ran
      obtain ⟨_, _, ran⟩ := of_bind_eq_ok ran
      obtain ⟨fresh, submissions, sources⟩ := insertRow_ok row
      obtain ⟨unsourced, sources', submissions'⟩ := insertSource_ok source
      rw [submissions'] at ran
      have back : inserted.submissions.get world.newId = some (queuedRow world new) := by
        rw [submissions]
        exact (Table.get_insert _ _ fresh _).trans (if_pos rfl)
      rw [back] at ran
      obtain ⟨_, _, ran⟩ := of_bind_eq_ok ran
      cases ran
      right
      refine ⟨_, rfl, fresh, ?_, ?_, ?_, ?_, ?_⟩
      · rw [← sources]
        exact unsourced
      · intro id
        rw [submissions', submissions]
        exact Table.get_insert _ _ fresh _
      · intro id
        rw [sources', Table.get_insert, sources]
      · rw [submissions', submissions]
        rfl
      · rw [sources', ← sources]
        rfl

/-! ### Claiming -/

theorem oldest_spec {row : Row} (found : self.oldest = some row) :
    self.submissions.get row.id = some row ∧ row.status = .queued ∧
      ∀ other ∈ self.submissions.rows, other.status = .queued → rank row ≤ rank other := by
  obtain ⟨stored, queued, least⟩ := Table.first_spec found
  refine ⟨Table.get_of_mem stored, by simpa using queued, fun other inside waiting => ?_⟩
  exact least other inside (by simpa using waiting)

/-- **A claim takes the oldest queued row, or changes nothing.** -/
theorem claimNext_cases (self : Store) (world : World) (leaseMs : Int64) :
    (self.claimNext world leaseMs).2 = self ∧
        (∀ job, (self.claimNext world leaseMs).1 ≠ .ok (some job)) ∨
      ∃ row source, self.oldest = some row ∧ self.sources.get row.id = some source ∧
        self.claimNext world leaseMs =
          (.ok (some (jobOf ((claimed world leaseMs).set row) source.source)),
            self.set row.id (claimed world leaseMs)) := by
  unfold claimNext
  rcases self.transaction_cases _ with ⟨e, failed⟩ | ⟨value, after, ran, done⟩
  · left
    rw [failed]
    exact ⟨rfl, fun job same => by cases same⟩
  · rw [done]
    obtain ⟨_, _, ran⟩ := of_bind_eq_ok ran
    cases found : self.oldest with
    | none =>
      rw [found] at ran
      cases ran
      left
      exact ⟨rfl, fun job same => by cases same⟩
    | some row =>
      rw [found] at ran
      obtain ⟨_, _, ran⟩ := of_bind_eq_ok ran
      cases stored : self.sources.get row.id with
      | none =>
        rw [sources_update, stored] at ran
        cases ran
      | some source =>
        rw [sources_update, stored] at ran
        obtain ⟨_, _, ran⟩ := of_bind_eq_ok ran
        cases ran
        right
        exact ⟨row, source, rfl, stored, rfl⟩

/-- **A job that is returned is that of a row that was queued**, and the row is claimed. -/
theorem claimNext_job {self : Store} {world : World} {leaseMs : Int64} {job : Job}
    (claims : (self.claimNext world leaseMs).1 = .ok (some job)) :
    ∃ row source, self.submissions.get row.id = some row ∧ row.status = .queued ∧
      self.sources.get row.id = some source ∧
      job = jobOf ((claimed world leaseMs).set row) source.source ∧
      (self.claimNext world leaseMs).2 = self.set row.id (claimed world leaseMs) ∧
      (self.claimNext world leaseMs).2.submissions.get row.id =
        some ((claimed world leaseMs).set row) := by
  rcases self.claimNext_cases world leaseMs with ⟨_, idle⟩ | ⟨row, source, oldest, stored, done⟩
  · exact absurd claims (idle job)
  · obtain ⟨held, queued, _⟩ := oldest_spec oldest
    rw [done] at claims
    have same := Option.some.inj (Except.ok.inj claims)
    refine ⟨row, source, held, queued, stored, same.symm, by rw [done], ?_⟩
    rw [done, get_set, if_pos rfl, held]
    rfl

/-! ### Reading -/

theorem row_of_get {id : String} {sub : Submission} (got : self.get world id = .ok (some sub)) :
    ∃ row, self.submissions.get id = some row ∧ sub = row.toSubmission := by
  unfold get at got
  split at got
  · cases got
  · obtain ⟨row, found, same⟩ := Option.map_eq_some_iff.mp (Except.ok.inj got)
    exact ⟨row, found, same.symm⟩

theorem get_of_row {id : String} {row : Row} (found : self.submissions.get id = some row)
    (works : world.fault 0 = none) : self.get world id = .ok (some row.toSubmission) := by
  rw [get, World.statement_of_none works, found]
  rfl

end Store

/-! ### Sweeping -/

/-- Expired, with attempts left. -/
def recoverable (now : Int64) (maxAttempts : UInt32) (row : Row) : Bool :=
  expired now row && decide (row.attempt < maxAttempts.toNat)

/-- A row after a sweep. -/
def sweptRow (world : World) (maxAttempts : UInt32) (row : Row) : Row :=
  if hopeless world.now maxAttempts row then (givenUp world sweepError).set row
  else if expired world.now row then (requeued Row.error).set row
  else row

theorem expired_givenUp {world : World} {now : Int64} {error : Row → String} {row : Row} :
    expired now ((givenUp world error).set row) = false := rfl

/-- Among the rows that are not hopeless, the expired ones are recoverable. -/
theorem recoverable_iff {now : Int64} {maxAttempts : UInt32} {row : Row} :
    recoverable now maxAttempts row = (expired now row && !hopeless now maxAttempts row) := by
  unfold recoverable hopeless
  by_cases reached : maxAttempts.toNat ≤ row.attempt
  · simp [reached, Nat.not_lt.mpr reached]
  · simp [reached, Nat.lt_of_not_le reached]

namespace Store

variable {self : Store} {world : World}

/-- **A sweep acts on every row by itself, and counts the rows it moves.** -/
theorem sweep_cases (self : Store) (world : World) (maxAttempts : UInt32) :
    (∃ e, self.sweep world maxAttempts = (.error e, self)) ∨
      ∃ after, self.sweep world maxAttempts =
          (.ok ⟨self.submissions.affected (recoverable world.now maxAttempts),
            self.submissions.affected (hopeless world.now maxAttempts)⟩, after) ∧
        after.sources = self.sources ∧
        ∀ id, after.submissions.get id =
          (self.submissions.get id).map (sweptRow world maxAttempts) := by
  unfold sweep
  rcases self.transaction_cases _ with failed | ⟨value, after, ran, done⟩
  · exact Or.inl failed
  · right
    rw [done]
    obtain ⟨_, _, ran⟩ := of_bind_eq_ok ran
    obtain ⟨_, _, ran⟩ := of_bind_eq_ok ran
    obtain ⟨_, _, ran⟩ := of_bind_eq_ok ran
    cases ran
    have rows : ∀ row, expired world.now (if hopeless world.now maxAttempts row
        then (givenUp world sweepError).set row else row) =
          recoverable world.now maxAttempts row := by
      intro row
      rw [recoverable_iff]
      by_cases lost : hopeless world.now maxAttempts row = true
      · rw [if_pos lost, lost, expired_givenUp, Bool.not_true, Bool.and_false]
      · rw [if_neg lost, Bool.eq_false_iff.mpr lost, Bool.not_false, Bool.and_true]
    refine ⟨_, Prod.ext (congrArg Except.ok (congrArg₂ SweepReport.mk ?_ rfl)) rfl, rfl, ?_⟩
    · show List.countP _ (List.map _ _) = _
      rw [List.countP_map]
      exact List.countP_congr fun row _ => iff_of_eq (congrArg (· = true) (rows row))
    · intro id
      rw [get_update, get_update, Option.map_map]
      congr 1
      funext row
      simp only [Function.comp_apply, sweptRow]
      by_cases lost : hopeless world.now maxAttempts row = true
      · rw [if_pos lost, if_pos lost]
        exact if_neg (Bool.eq_false_iff.mp expired_givenUp)
      · rw [if_neg lost, if_neg lost]

/-- A sweep that changes something has worked. -/
theorem sweep_works {maxAttempts : UInt32} {report : SweepReport}
    (swept : (self.sweep world maxAttempts).1 = .ok report) : ∀ n < 3, world.fault n = none := by
  unfold sweep at swept
  rcases self.transaction_cases _ with ⟨e, failed⟩ | ⟨value, after, ran, done⟩
  · rw [failed] at swept
    cases swept
  · obtain ⟨_, first, ran⟩ := of_bind_eq_ok ran
    obtain ⟨_, second, ran⟩ := of_bind_eq_ok ran
    obtain ⟨_, third, ran⟩ := of_bind_eq_ok ran
    intro n small
    rcases n with _ | _ | _ | n
    · exact World.works_of_statement first
    · exact World.works_of_statement second
    · exact World.works_of_statement third
    · omega

/-- **A start-up puts every row in flight back.** -/
theorem requeueInflight_cases (self : Store) (world : World) :
    (∃ e, self.requeueInflight world = (.error e, self)) ∨
      world.fault 0 = none ∧ self.requeueInflight world =
        (.ok (self.submissions.affected fun row => row.status.inFlight),
          self.update (fun row => row.status.inFlight) (requeued Row.error)) :=
  self.execute_cases world _ _ _

end Store

end Codexec.Server
