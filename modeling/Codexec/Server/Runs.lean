/-
**The run lane.**

`RunStore` is a bounded queue and a map of records, behind one mutex. `lane` is what threads do with
it: handlers submit, workers pop jobs and complete them, the sweeper prunes, and time passes. Next
to the store a state of the lane has the clock and a history: the accepted jobs, the popped ones,
those of them that workers still hold, and the outcomes.

* `Consistent` — the queue, the records and the history are in step; every step keeps it.
* `run_lane_consistent` — so it holds in every reachable state, and no step loses or invents a job.
* `outcome_kept_iff` — an outcome is there exactly until the first pruning that finds the record to
  be `ttl` old, counted from its submission.
-/

import Codexec.Server.Store
import Codexec.Judge.Compare
import Codexec.Judge.Pipeline
import Codexec.Library.Machine

namespace Codexec.Server

open Codexec Codexec.Library

structure RunJob where
  id : String
  language : String
  source : String
  tests : List TestCase
  timeLimitMs : UInt64
  memoryLimitKb : UInt64
  comparer : Comparer

structure RunRecord where
  id : String
  status : Status
  result : Option JudgeResult
  error : Option String
  createdAtMs : Int64
  /-- A reading of the monotonic clock. -/
  created : Nat

/-- The lane is full. -/
inductive QueueFull
  | queueFull

structure RunStore where
  capacity : Nat
  ttl : Nat
  queue : List RunJob
  records : Table RunRecord RunRecord.id

namespace RunStore

def new (capacity ttl : Nat) : RunStore := ⟨capacity, ttl, [], Table.empty⟩

variable (self : RunStore)

/-- Enqueues a run; refuses when the lane is full. The id is drawn and the clocks are read once
there is room. -/
def submit (job : RunJob) (newId : String) (now : Int64) (instant : Nat) :
    Except QueueFull RunRecord × RunStore :=
  if self.queue.length ≥ self.capacity then (.error .queueFull, self)
  else
    let job := { job with id := newId }
    let record : RunRecord := ⟨job.id, .queued, none, none, now, instant⟩
    (.ok record, { self with records := self.records.put record, queue := self.queue ++ [job] })

/-- `records.get_mut(id)` and a change of what is found. -/
def modify (id : String) (change : RunRecord → RunRecord)
    (keeps : ∀ record, (change record).id = record.id) : RunStore :=
  { self with records := self.records.update (fun record => record.id = id) change keeps }

/-- What `pop` does to a record. -/
def begun (record : RunRecord) : RunRecord := { record with status := .running }

theorem begun_id (record : RunRecord) : (begun record).id = record.id := rfl

def pop : Option RunJob × RunStore :=
  match self.queue with
  | [] => (none, self)
  | job :: queue =>
    (some job, { self.modify job.id begun begun_id with queue := queue })

/-- What `complete` does to a record. -/
def completed (outcome : Except String JudgeResult) (record : RunRecord) : RunRecord :=
  match outcome with
  | .ok result => { record with status := .done, result := some result }
  | .error error => { record with status := .done, error := some error }

theorem completed_id (outcome : Except String JudgeResult) (record : RunRecord) :
    (completed outcome record).id = record.id := by
  cases outcome <;> rfl

def complete (id : String) (outcome : Except String JudgeResult) : RunStore :=
  self.modify id (completed outcome) (completed_id outcome)

def get (id : String) : Option RunRecord := self.records.get id

/-- Whether `prune` keeps a record. `elapsed` reads the clock for each record that is DONE. -/
def kept (clock : String → Nat) (record : RunRecord) : Bool :=
  record.status ≠ .done || clock record.id - record.created < self.ttl

/-- Drops finished records older than the TTL. -/
def prune (clock : String → Nat) : Nat × RunStore :=
  let records := self.records.retain (self.kept clock)
  (self.records.rows.length - records.rows.length, { self with records := records })

/-- A submission that finds room. -/
theorem submit_of_room {job : RunJob} {newId : String} {now : Int64} {instant : Nat}
    (room : self.queue.length < self.capacity) :
    self.submit job newId now instant =
      (.ok ⟨newId, .queued, none, none, now, instant⟩,
        { self with
          records := self.records.put ⟨newId, .queued, none, none, now, instant⟩
          queue := self.queue ++ [{ job with id := newId }] }) :=
  if_neg (Nat.not_le.mpr room)

/-- **A refused submission changes nothing.** -/
theorem submit_of_full {job : RunJob} {newId : String} {now : Int64} {instant : Nat}
    (full : self.capacity ≤ self.queue.length) :
    self.submit job newId now instant = (.error .queueFull, self) :=
  if_pos full

end RunStore

/-! ### The lane -/

structure Lane where
  runs : RunStore
  /-- The monotonic clock. -/
  now : Nat
  /-- The jobs that workers hold. -/
  held : List RunJob
  accepted : List RunJob
  popped : List RunJob
  /-- Jobs and their outcomes. -/
  ended : List (RunJob × Except String JudgeResult)

/-- What happens next. -/
inductive LaneEvent
  | submit (job : RunJob) (newId : String) (createdAtMs : Int64)
  | pop
  | complete (job : RunJob) (outcome : Except String JudgeResult)
  | prune (clock : String → Nat)
  | pass (later : Nat)

namespace Lane

/-- The ids of jobs. -/
abbrev ids (jobs : List RunJob) : List String := jobs.map RunJob.id

/-- The job that a submission adds. -/
def admitted (job : RunJob) : Except QueueFull RunRecord → List RunJob
  | .ok record => [{ job with id := record.id }]
  | .error _ => []

/-- One atomic action. -/
inductive Step : Lane → LaneEvent → Lane → Prop
  /-- The id is a new one. -/
  | submit {s : Lane} (job : RunJob) (newId : String) (createdAtMs : Int64)
      (fresh : newId ∉ ids s.accepted) :
      Step s (.submit job newId createdAtMs)
        { s with
          runs := (s.runs.submit job newId createdAtMs s.now).2
          accepted := s.accepted ++ admitted job (s.runs.submit job newId createdAtMs s.now).1 }
  | pop {s : Lane} :
      Step s .pop
        { s with
          runs := s.runs.pop.2
          held := s.held ++ s.runs.pop.1.toList
          popped := s.popped ++ s.runs.pop.1.toList }
  /-- `handle_run` ends, in the worker that popped the job. -/
  | complete {s : Lane} {before after : List RunJob} (job : RunJob)
      (outcome : Except String JudgeResult) (holds : s.held = before ++ job :: after) :
      Step s (.complete job outcome)
        { s with
          runs := s.runs.complete job.id outcome
          held := before ++ after
          ended := s.ended ++ [(job, outcome)] }
  /-- The clock is read while the records are gone through. -/
  | prune {s : Lane} (clock : String → Nat) (later : Nat)
      (between : ∀ id, s.now ≤ clock id ∧ clock id ≤ later) :
      Step s (.prune clock) { s with runs := (s.runs.prune clock).2, now := later }
  | pass {s : Lane} (later : Nat) (onward : s.now ≤ later) :
      Step s (.pass later) { s with now := later }

end Lane

/-- The lane, from an empty store. -/
def lane (capacity ttl : Nat) : Machine Lane LaneEvent where
  start s := ∃ now, s = ⟨.new capacity ttl, now, [], [], [], []⟩
  step := Lane.Step

/-! ### What the operations do to records -/

namespace RunRecord

/-- A record without an outcome. -/
structure Blank (record : RunRecord) (status : Status) : Prop where
  status : record.status = status
  result : record.result = none
  error : record.error = none

/-- A record with an outcome. -/
structure Tells (record : RunRecord) (outcome : Except String JudgeResult) : Prop where
  status : record.status = .done
  result : record.result = outcome.toOption
  error : record.error = match outcome with
    | .ok _ => none
    | .error error => some error

theorem Blank.completed {record : RunRecord} {status : Status} (blank : record.Blank status)
    (outcome : Except String JudgeResult) : (RunStore.completed outcome record).Tells outcome := by
  cases outcome with
  | ok result => exact ⟨rfl, rfl, blank.error⟩
  | error error => exact ⟨rfl, blank.result, rfl⟩

/-- **A record with an outcome has exactly one of result and error.** -/
theorem Tells.exclusive {record : RunRecord} {outcome : Except String JudgeResult}
    (tells : record.Tells outcome) : record.result.isSome ≠ record.error.isSome := by
  rw [tells.result, tells.error]
  cases outcome <;> simp [Except.toOption]

end RunRecord

namespace RunStore

variable {self : RunStore} {id wanted : String} {record : RunRecord}

section Modify

variable {change : RunRecord → RunRecord}

theorem get_modify_self (keeps : ∀ record, (change record).id = record.id)
    (found : self.get id = some record) :
    (self.modify id change keeps).get id = some (change record) := by
  show (self.records.update (fun record => record.id = id) change keeps).get id = _
  exact Table.get_update_of_selected found (by simpa using Table.get_key found)

theorem get_modify_ne (keeps : ∀ record, (change record).id = record.id) (other : wanted ≠ id) :
    (self.modify id change keeps).get wanted = self.get wanted := by
  show (self.records.update (fun record => record.id = id) change keeps).get wanted =
    self.records.get wanted
  cases found : self.records.get wanted with
  | none => rw [Table.get_update, found, Option.map_none]
  | some record =>
    have key := Table.get_key found
    exact Table.get_update_of_unselected found (by simpa [key] using other)

/-- A record is as old as it was. -/
theorem created_of_modify (keeps : ∀ record, (change record).id = record.id)
    (keepsCreated : ∀ record, (change record).created = record.created)
    (found : (self.modify id change keeps).get wanted = some record) :
    ∃ old, self.get wanted = some old ∧ old.created = record.created := by
  have mapped : (self.get wanted).map (fun record => if record.id = id then change record else record)
      = some record := by
    rw [← found]
    have updated := Table.get_update self.records (fun record => record.id = id) change keeps wanted
    simp only [decide_eq_true_eq] at updated
    exact updated.symm
  obtain ⟨old, found', rfl⟩ := Option.map_eq_some_iff.mp mapped
  refine ⟨old, found', ?_⟩
  split
  · exact (keepsCreated old).symm
  · rfl

end Modify

/-- What a pruning does to a record. -/
theorem get_prune (clock : String → Nat) :
    (self.prune clock).2.get wanted = (self.get wanted).filter (self.kept clock) :=
  Table.get_retain _ _ _

/-- **Only finished records are dropped.** -/
theorem get_prune_of_open {clock : String → Nat} (found : self.get id = some record)
    (unfinished : record.status ≠ .done) : (self.prune clock).2.get id = some record := by
  rw [get_prune, found, Option.filter_some, if_pos]
  simp [kept, unfinished]

end RunStore

/-! ### What is kept -/

namespace Lane

/-- The queue, the records and the history are in step. -/
structure Consistent (s : Lane) : Prop where
  bounded : s.runs.queue.length ≤ s.runs.capacity
  order : s.accepted = s.popped ++ s.runs.queue
  once : (ids s.accepted).Nodup
  parted : s.popped.Perm (s.held ++ s.ended.map Prod.fst)
  waiting : ∀ job ∈ s.runs.queue, ∃ record, s.runs.get job.id = some record ∧ record.Blank .queued
  running : ∀ job ∈ s.held, ∃ record, s.runs.get job.id = some record ∧ record.Blank .running
  finished : ∀ id record, s.runs.get id = some record → id ∉ ids s.runs.queue → id ∉ ids s.held →
    ∃ job outcome, (job, outcome) ∈ s.ended ∧ job.id = id ∧ record.Tells outcome

namespace Consistent

variable {s s' : Lane}

/-- The ids of queued, held and ended jobs. -/
theorem apart (kept : Consistent s) :
    (ids s.held ++ ids (s.ended.map Prod.fst) ++ ids s.runs.queue).Nodup := by
  have once := kept.once
  rw [kept.order, ids, List.map_append] at once
  have same : (ids s.popped ++ ids s.runs.queue).Perm
      (ids s.held ++ ids (s.ended.map Prod.fst) ++ ids s.runs.queue) := by
    have mapped := kept.parted.map RunJob.id
    rw [List.map_append] at mapped
    exact mapped.append_right _
  exact same.nodup_iff.mp once

theorem accepted_iff (kept : Consistent s) (id : String) :
    id ∈ ids s.accepted ↔
      id ∈ ids s.held ∨ id ∈ ids (s.ended.map Prod.fst) ∨ id ∈ ids s.runs.queue := by
  rw [kept.order, ids, List.map_append, List.mem_append, (kept.parted.map RunJob.id).mem_iff,
    List.map_append, List.mem_append, or_assoc]

/-- A queued job is not held. -/
theorem not_held (kept : Consistent s) {id : String} (queued : id ∈ ids s.runs.queue) :
    id ∉ ids s.held := by
  intro held
  exact (List.nodup_append.mp kept.apart).2.2 id (List.mem_append_left _ held) id queued rfl

theorem started (capacity ttl now : Nat) : Consistent ⟨.new capacity ttl, now, [], [], [], []⟩ where
  bounded := Nat.zero_le _
  order := rfl
  once := List.nodup_nil
  parted := List.Perm.refl _
  waiting := nofun
  running := nofun
  finished id record found := by simp [RunStore.new, RunStore.get] at found

/-- **A new job.** -/
theorem submitted (kept : Consistent s) (job : RunJob) {newId : String} {createdAtMs : Int64}
    (fresh : newId ∉ ids s.accepted) (room : s.runs.queue.length < s.runs.capacity) :
    Consistent
      { s with
        runs :=
          { s.runs with
            records := s.runs.records.put ⟨newId, .queued, none, none, createdAtMs, s.now⟩
            queue := s.runs.queue ++ [{ job with id := newId }] }
        accepted := s.accepted ++ [{ job with id := newId }] } := by
  have absent := fresh
  rw [kept.accepted_iff, not_or, not_or] at absent
  have before : ∀ job ∈ s.held ++ s.runs.queue, newId ≠ job.id := by
    rintro job inside rfl
    rcases List.mem_append.mp inside with inside | inside
    · exact absent.1 (List.mem_map_of_mem inside)
    · exact absent.2.2 (List.mem_map_of_mem inside)
  have others : ∀ job ∈ s.held ++ s.runs.queue, ∀ put : RunRecord, put.id = newId →
      (s.runs.records.put put).get job.id = s.runs.records.get job.id := by
    rintro job inside put rfl
    rw [Table.get_put, if_neg (before job inside)]
  refine ⟨?_, ?_, ?_, kept.parted, ?_, ?_, ?_⟩
  · simpa using Nat.succ_le_of_lt room
  · simp only [kept.order, List.append_assoc]
  · rw [ids, List.map_append]
    exact kept.once.append (List.nodup_singleton _) (by simpa using fresh)
  · intro queued inside
    rcases List.mem_append.mp inside with inside | inside
    · obtain ⟨record, found, blank⟩ := kept.waiting queued inside
      refine ⟨record, ?_, blank⟩
      exact (others queued (List.mem_append_right _ inside) _ rfl).trans found
    · obtain rfl := List.mem_singleton.mp inside
      exact ⟨_, (Table.get_put _ _ _).trans (if_pos rfl), rfl, rfl, rfl⟩
  · intro held inside
    obtain ⟨record, found, blank⟩ := kept.running held inside
    refine ⟨record, ?_, blank⟩
    exact (others held (List.mem_append_left _ inside) _ rfl).trans found
  · intro id record found unqueued unheld
    rw [ids, List.map_append, List.mem_append, not_or] at unqueued
    have other : ¬ newId = id := fun same => unqueued.2 (by simp [same])
    refine kept.finished id record ?_ unqueued.1 unheld
    rw [← found]
    exact ((Table.get_put _ _ _).trans (if_neg other)).symm

/-- **A worker pops a job.** -/
theorem popped (kept : Consistent s) {job : RunJob} {queue : List RunJob}
    (first : s.runs.queue = job :: queue) :
    Consistent
      { s with
        runs :=
          { s.runs.modify job.id RunStore.begun RunStore.begun_id with queue := queue }
        held := s.held ++ [job]
        popped := s.popped ++ [job] } := by
  have apart := kept.apart
  rw [first, ids, ids, ids, List.map_cons] at apart
  have distinct := (List.nodup_append.mp apart).2
  have others : ∀ {wanted}, wanted ≠ job.id →
      (s.runs.modify job.id RunStore.begun RunStore.begun_id).get wanted = s.runs.get wanted :=
    RunStore.get_modify_ne _
  refine ⟨?_, ?_, kept.once, ?_, ?_, ?_, ?_⟩
  · have bounded := kept.bounded
    rw [first] at bounded
    exact Nat.le_of_succ_le bounded
  · simp only [kept.order, first, List.append_assoc]
    rfl
  · refine (kept.parted.append_right [job]).trans ?_
    rw [List.append_assoc, List.append_assoc]
    exact List.perm_append_comm.append_left _
  · intro queued inside
    obtain ⟨record, found, blank⟩ := kept.waiting queued (first ▸ List.mem_cons_of_mem _ inside)
    refine ⟨record, (others fun same => ?_).trans found, blank⟩
    exact (List.nodup_cons.mp distinct.1).1 (same ▸ List.mem_map_of_mem inside)
  · intro held inside
    rcases List.mem_append.mp inside with inside | inside
    · obtain ⟨record, found, blank⟩ := kept.running held inside
      refine ⟨record, (others fun same => ?_).trans found, blank⟩
      refine distinct.2 held.id ?_ job.id List.mem_cons_self same
      exact List.mem_append_left _ (List.mem_map_of_mem inside)
    · obtain rfl := List.mem_singleton.mp inside
      obtain ⟨record, found, blank⟩ := kept.waiting held (first ▸ List.mem_cons_self)
      exact ⟨_, RunStore.get_modify_self RunStore.begun_id found, rfl, blank.result, blank.error⟩
  · intro id record found unqueued unheld
    rw [ids, List.map_append, List.mem_append, not_or] at unheld
    have other : id ≠ job.id := fun same => unheld.2 (by simp [same])
    refine kept.finished id record ((others other).symm.trans found) ?_ unheld.1
    rw [first, ids, List.map_cons, List.mem_cons, not_or]
    exact ⟨other, unqueued⟩

/-- **The worker completes it.** -/
theorem completed (kept : Consistent s) {before after : List RunJob} {job : RunJob}
    (outcome : Except String JudgeResult) (holds : s.held = before ++ job :: after) :
    Consistent
      { s with
        runs := s.runs.complete job.id outcome
        held := before ++ after
        ended := s.ended ++ [(job, outcome)] } := by
  have here : job ∈ s.held := holds ▸ List.mem_append_cons_self
  have split : s.held.Perm (job :: (before ++ after)) := holds ▸ List.perm_middle
  have distinct : (ids s.held).Nodup :=
    (List.nodup_append.mp (List.nodup_append.mp kept.apart).1).1
  have alone := List.nodup_cons.mp ((split.map RunJob.id).nodup_iff.mp distinct)
  have others : ∀ {wanted}, wanted ≠ job.id →
      (s.runs.complete job.id outcome).get wanted = s.runs.get wanted :=
    RunStore.get_modify_ne _
  refine ⟨kept.bounded, kept.order, kept.once, ?_, ?_, ?_, ?_⟩
  · refine kept.parted.trans ((split.append_right _).trans ?_)
    rw [List.map_append, ← List.append_assoc]
    exact (List.perm_append_singleton job _).symm
  · intro queued inside
    obtain ⟨record, found, blank⟩ := kept.waiting queued inside
    refine ⟨record, (others fun same => ?_).trans found, blank⟩
    exact kept.not_held (same ▸ List.mem_map_of_mem inside) (List.mem_map_of_mem here)
  · intro held inside
    obtain ⟨record, found, blank⟩ := kept.running held (split.mem_iff.mpr (.tail _ inside))
    refine ⟨record, (others fun same => ?_).trans found, blank⟩
    exact alone.1 (same ▸ List.mem_map_of_mem inside)
  · intro id record found unqueued unheld
    by_cases same : id = job.id
    · subst same
      obtain ⟨record', found', blank⟩ := kept.running job here
      have tells := blank.completed outcome
      obtain rfl := Option.some.inj (found.symm.trans (RunStore.get_modify_self _ found'))
      exact ⟨job, outcome, List.mem_append_right _ (List.mem_singleton_self _), rfl, tells⟩
    · have notHeld : id ∉ ids s.held := by
        rw [(split.map RunJob.id).mem_iff, List.map_cons, List.mem_cons, not_or]
        exact ⟨same, unheld⟩
      obtain ⟨job', outcome', inside, key, tells⟩ :=
        kept.finished id record ((others same).symm.trans found) unqueued notHeld
      exact ⟨job', outcome', List.mem_append_left _ inside, key, tells⟩

/-- **The sweeper prunes.** -/
theorem pruned (kept : Consistent s) (clock : String → Nat) (later : Nat) :
    Consistent { s with runs := (s.runs.prune clock).2, now := later } where
  bounded := kept.bounded
  order := kept.order
  once := kept.once
  parted := kept.parted
  waiting job inside := by
    obtain ⟨record, found, blank⟩ := kept.waiting job inside
    exact ⟨record, RunStore.get_prune_of_open found (by simp [blank.status]), blank⟩
  running job inside := by
    obtain ⟨record, found, blank⟩ := kept.running job inside
    exact ⟨record, RunStore.get_prune_of_open found (by simp [blank.status]), blank⟩
  finished id record found unqueued unheld := by
    rw [RunStore.get_prune, Option.filter_eq_some_iff] at found
    exact kept.finished id record found.1 unqueued unheld

/-- **Every step keeps what is kept.** -/
theorem step {event : LaneEvent} (kept : Consistent s) (step : Step s event s') :
    Consistent s' := by
  cases step with
  | submit job newId createdAtMs fresh =>
    by_cases room : s.runs.queue.length < s.runs.capacity
    · rw [RunStore.submit_of_room _ room]
      exact kept.submitted job fresh room
    · rw [RunStore.submit_of_full _ (Nat.not_lt.mp room)]
      have same : s.accepted ++ admitted job (.error .queueFull) = s.accepted := List.append_nil _
      rw [same]
      exact kept
  | pop =>
    cases first : s.runs.queue with
    | nil =>
      simp only [RunStore.pop, first, Option.toList_none, List.append_nil]
      exact kept
    | cons job queue =>
      simp only [RunStore.pop, first, Option.toList_some]
      exact kept.popped first
  | complete job outcome holds => exact kept.completed outcome holds
  | prune clock later between => exact kept.pruned clock later
  | pass later onward =>
    exact ⟨kept.bounded, kept.order, kept.once, kept.parted, kept.waiting, kept.running, kept.finished⟩

end Consistent

/-- The record of a queued job, of a held one, or of one that has ended. -/
theorem Consistent.status_cases {s : Lane} (kept : Consistent s) {id : String} {record : RunRecord}
    (found : s.runs.get id = some record) :
    (id ∈ ids s.runs.queue ∧ record.Blank .queued) ∨ (id ∈ ids s.held ∧ record.Blank .running) ∨
      ∃ job outcome, (job, outcome) ∈ s.ended ∧ job.id = id ∧ record.Tells outcome := by
  by_cases queued : id ∈ ids s.runs.queue
  · obtain ⟨job, inside, rfl⟩ := List.mem_map.mp queued
    obtain ⟨record', found', blank⟩ := kept.waiting job inside
    obtain rfl := Option.some.inj (found.symm.trans found')
    exact Or.inl ⟨queued, blank⟩
  · by_cases held : id ∈ ids s.held
    · obtain ⟨job, inside, rfl⟩ := List.mem_map.mp held
      obtain ⟨record', found', blank⟩ := kept.running job inside
      obtain rfl := Option.some.inj (found.symm.trans found')
      exact Or.inr (Or.inl ⟨held, blank⟩)
    · exact Or.inr (Or.inr (kept.finished id record found queued held))

/-- **The queued jobs are those of the QUEUED records.** -/
theorem Consistent.queued_iff {s : Lane} (kept : Consistent s) (id : String) :
    id ∈ ids s.runs.queue ↔ ∃ record, s.runs.get id = some record ∧ record.status = .queued := by
  constructor
  · intro queued
    obtain ⟨job, inside, rfl⟩ := List.mem_map.mp queued
    obtain ⟨record, found, blank⟩ := kept.waiting job inside
    exact ⟨record, found, blank.status⟩
  · rintro ⟨record, found, status⟩
    rcases kept.status_cases found with ⟨queued, -⟩ | ⟨-, blank⟩ | ⟨_, _, -, -, tells⟩
    · exact queued
    · exact absurd (status.symm.trans blank.status) (by decide)
    · exact absurd (status.symm.trans tells.status) (by decide)

/-- **The held jobs are those of the RUNNING records.** -/
theorem Consistent.held_iff {s : Lane} (kept : Consistent s) (id : String) :
    id ∈ ids s.held ↔ ∃ record, s.runs.get id = some record ∧ record.status = .running := by
  constructor
  · intro held
    obtain ⟨job, inside, rfl⟩ := List.mem_map.mp held
    obtain ⟨record, found, blank⟩ := kept.running job inside
    exact ⟨record, found, blank.status⟩
  · rintro ⟨record, found, status⟩
    rcases kept.status_cases found with ⟨-, blank⟩ | ⟨held, -⟩ | ⟨_, _, -, -, tells⟩
    · exact absurd (status.symm.trans blank.status) (by decide)
    · exact held
    · exact absurd (status.symm.trans tells.status) (by decide)

/-- What a single step may do: a refused submission changes nothing, a completion finds its record
and stores the outcome, and a pruning drops only finished records. -/
def Lossless : Transition Lane LaneEvent → Prop
  | ⟨before, .submit job newId createdAtMs, after⟩ =>
    (before.runs.submit job newId createdAtMs before.now).1 = .error .queueFull → after = before
  | ⟨before, .complete job outcome, after⟩ =>
    (∃ record, before.runs.get job.id = some record ∧ record.Blank .running) ∧
      ∃ record, after.runs.get job.id = some record ∧ record.Tells outcome
  | ⟨before, .prune _, after⟩ => ∀ id record, before.runs.get id = some record →
    after.runs.get id = some record ∨ (after.runs.get id = none ∧ record.status = .done)
  | _ => True

theorem Consistent.lossless {s s' : Lane} {event : LaneEvent} (kept : Consistent s)
    (step : Step s event s') : Lossless ⟨s, event, s'⟩ := by
  cases step with
  | submit job newId createdAtMs fresh =>
    intro refused
    by_cases room : s.runs.queue.length < s.runs.capacity
    · rw [RunStore.submit_of_room _ room] at refused
      cases refused
    · rw [RunStore.submit_of_full _ (Nat.not_lt.mp room)]
      simp [admitted]
  | pop => trivial
  | complete job outcome holds =>
    obtain ⟨record, found, blank⟩ := kept.running job (holds ▸ List.mem_append_cons_self)
    exact ⟨⟨record, found, blank⟩, _, RunStore.get_modify_self _ found, blank.completed outcome⟩
  | prune clock later between =>
    intro id record found
    by_cases open' : record.status = .done
    · by_cases stays : s.runs.kept clock record = true
      · left
        rw [RunStore.get_prune, found, Option.filter_some, if_pos stays]
      · right
        rw [RunStore.get_prune, found, Option.filter_some, if_neg stays]
        exact ⟨rfl, open'⟩
    · exact Or.inl (RunStore.get_prune_of_open found open')
  | pass later onward => trivial

theorem consistent_invariant {capacity ttl : Nat} : (lane capacity ttl).Invariant Consistent where
  start _ initial := by
    obtain ⟨now, rfl⟩ := initial
    exact Consistent.started capacity ttl now
  step _ _ _ kept step := kept.step step

/-- The settings of a store stay. -/
theorem fixed_invariant {capacity ttl : Nat} :
    (lane capacity ttl).Invariant fun s => s.runs.capacity = capacity ∧ s.runs.ttl = ttl where
  start _ initial := by
    obtain ⟨now, rfl⟩ := initial
    exact ⟨rfl, rfl⟩
  step before _ _ fixed step := by
    cases step with
    | submit job newId createdAtMs fresh =>
      by_cases room : before.runs.queue.length < before.runs.capacity
      · rw [RunStore.submit_of_room _ room]
        exact fixed
      · rw [RunStore.submit_of_full _ (Nat.not_lt.mp room)]
        exact fixed
    | pop =>
      cases first : before.runs.queue with
      | nil =>
        simp only [RunStore.pop, first]
        exact fixed
      | cons job queue =>
        simp only [RunStore.pop, first]
        exact fixed
    | complete job outcome holds => exact fixed
    | prune clock later between => exact fixed
    | pass later onward => exact fixed

end Lane

/-- **The run lane is consistent**, at the end of every run: the queue is bounded and its ids are
those of the QUEUED records, each once; the jobs of the RUNNING records are those that were popped
and have not ended; jobs are popped in the order of their submission, each once, and no other is
gone from the queue; a DONE record has the outcome of its job, as exactly one of result and error.
And no step of the run lost anything. -/
theorem run_lane_consistent {capacity ttl : Nat} {steps : List (Transition Lane LaneEvent)}
    {s : Lane} (run : (lane capacity ttl).Run steps s) :
    (s.runs.queue.length ≤ capacity ∧ (Lane.ids s.runs.queue).Nodup ∧
      ∀ id, id ∈ Lane.ids s.runs.queue ↔
        ∃ record, s.runs.get id = some record ∧ record.status = .queued) ∧
    (s.popped.Perm (s.held ++ s.ended.map Prod.fst) ∧
      ∀ id, id ∈ Lane.ids s.held ↔
        ∃ record, s.runs.get id = some record ∧ record.status = .running) ∧
    (s.accepted = s.popped ++ s.runs.queue ∧ (Lane.ids s.accepted).Nodup) ∧
    (∀ id record, s.runs.get id = some record → record.status = .done →
      record.result.isSome ≠ record.error.isSome ∧
        ∃ job outcome, (job, outcome) ∈ s.ended ∧ job.id = id ∧ record.Tells outcome) ∧
    ∀ taken ∈ steps, Lane.Lossless taken := by
  have kept := Lane.consistent_invariant.of_run run
  obtain ⟨capacity', -⟩ := Lane.fixed_invariant.of_run run
  refine ⟨⟨capacity' ▸ kept.bounded, (List.nodup_append.mp kept.apart).2.1, kept.queued_iff⟩,
    ⟨kept.parted, kept.held_iff⟩, ⟨kept.order, kept.once⟩, ?_, ?_⟩
  · intro id record found status
    rcases kept.status_cases found with ⟨-, blank⟩ | ⟨-, blank⟩ | ⟨job, outcome, inside, key, tells⟩
    · exact absurd (status.symm.trans blank.status) (by decide)
    · exact absurd (status.symm.trans blank.status) (by decide)
    · exact ⟨tells.exclusive, job, outcome, inside, key, tells⟩
  · intro taken inside
    obtain ⟨before, step⟩ := Lane.consistent_invariant.of_transition run inside
    exact before.lossless step

/-! ### How long an outcome is kept -/

namespace Lane

variable {capacity ttl : Nat} {s s' : Lane} {event : LaneEvent}

theorem Step.now_le (step : Step s event s') : s.now ≤ s'.now := by
  cases step with
  | prune clock later between => exact (between "").1.trans (between "").2
  | pass later onward => exact onward
  | _ => exact Nat.le_refl _

/-- The clock only goes forward. -/
theorem now_le {steps : List (Transition Lane LaneEvent)} (run : (lane capacity ttl).Run steps s)
    {taken : Transition Lane LaneEvent} (inside : taken ∈ steps) :
    taken.before.now ≤ taken.after.now ∧ taken.after.now ≤ s.now := by
  induction run with
  | start initial => cases inside
  | next earlier step ih =>
    rcases List.mem_cons.mp inside with rfl | inside
    · exact ⟨step.now_le, Nat.le_refl _⟩
    · exact ⟨(ih inside).1, (ih inside).2.trans step.now_le⟩

/-- A job was accepted under an id at a moment. -/
def SubmittedAt (steps : List (Transition Lane LaneEvent)) (id : String) (moment : Nat) : Prop :=
  ∃ taken ∈ steps, ∃ job createdAtMs record, taken.label = .submit job id createdAtMs ∧
    (taken.before.runs.submit job id createdAtMs taken.before.now).1 = .ok record ∧
    taken.before.now = moment

/-- A record is new, or it has the age of the record before. -/
theorem Step.created (step : Step s event s') {id : String} {record : RunRecord}
    (found : s'.runs.get id = some record) :
    (∃ old, s.runs.get id = some old ∧ old.created = record.created) ∨
      ∃ job createdAtMs, event = .submit job id createdAtMs ∧
        (s.runs.submit job id createdAtMs s.now).1 = .ok record ∧ s.now = record.created := by
  cases step with
  | submit job newId createdAtMs fresh =>
    by_cases room : s.runs.queue.length < s.runs.capacity
    · rw [RunStore.submit_of_room _ room] at found
      have put := (Table.get_put s.runs.records _ id).symm.trans found
      by_cases same : newId = id
      · subst same
        rw [if_pos rfl] at put
        obtain rfl := Option.some.inj put
        exact Or.inr ⟨job, createdAtMs, rfl, by rw [RunStore.submit_of_room _ room], rfl⟩
      · rw [if_neg same] at put
        exact Or.inl ⟨record, put, rfl⟩
    · rw [RunStore.submit_of_full _ (Nat.not_lt.mp room)] at found
      exact Or.inl ⟨record, found, rfl⟩
  | pop =>
    cases first : s.runs.queue with
    | nil =>
      simp only [RunStore.pop, first] at found
      exact Or.inl ⟨record, found, rfl⟩
    | cons job queue =>
      simp only [RunStore.pop, first] at found
      exact Or.inl (RunStore.created_of_modify RunStore.begun_id (fun _ => rfl) found)
  | complete job outcome holds =>
    refine Or.inl (RunStore.created_of_modify (RunStore.completed_id outcome) (fun record => ?_) found)
    cases outcome <;> rfl
  | prune clock later between =>
    have kept : (s.runs.prune clock).2.get id = some record := found
    rw [RunStore.get_prune, Option.filter_eq_some_iff] at kept
    exact Or.inl ⟨record, kept.1, rfl⟩
  | pass later onward => exact Or.inl ⟨record, found, rfl⟩

/-- **The age of a record is counted from the submission of its job.** -/
theorem submitted_at {steps : List (Transition Lane LaneEvent)}
    (run : (lane capacity ttl).Run steps s) {id : String} {record : RunRecord}
    (found : s.runs.get id = some record) : SubmittedAt steps id record.created := by
  induction run generalizing record with
  | start initial =>
    obtain ⟨now, rfl⟩ := initial
    simp [RunStore.new, RunStore.get] at found
  | next earlier step ih =>
    rcases step.created found with ⟨old, found', same⟩ | ⟨job, createdAtMs, rfl, accepted, same⟩
    · obtain ⟨taken, inside, submitted⟩ := ih found'
      exact ⟨taken, List.mem_cons_of_mem _ inside, same ▸ submitted⟩
    · exact ⟨_, List.mem_cons_self, job, createdAtMs, record, rfl, accepted, same⟩

/-- The record of a job that has ended, after one more step. -/
def remains (s : Lane) (id : String) : LaneEvent → Option RunRecord
  | .prune clock => (s.runs.get id).filter (s.runs.kept clock)
  | _ => s.runs.get id

/-- **Nothing but a pruning touches the record of a job that has ended.** -/
theorem Consistent.get_of_ended (kept : Consistent s) (step : Step s event s') {id : String}
    (ended : id ∈ ids (s.ended.map Prod.fst)) :
    id ∈ ids (s'.ended.map Prod.fst) ∧ s'.runs.get id = s.remains id event := by
  have apart := List.nodup_append.mp kept.apart
  cases step with
  | submit job newId createdAtMs fresh =>
    refine ⟨ended, ?_⟩
    by_cases room : s.runs.queue.length < s.runs.capacity
    · rw [RunStore.submit_of_room _ room]
      have other : newId ≠ id := by
        rintro rfl
        exact fresh ((kept.accepted_iff newId).mpr (Or.inr (Or.inl ended)))
      exact (Table.get_put _ _ _).trans (if_neg other)
    · rw [RunStore.submit_of_full _ (Nat.not_lt.mp room)]
      rfl
  | pop =>
    refine ⟨ended, ?_⟩
    cases first : s.runs.queue with
    | nil => simp only [RunStore.pop, first, remains]
    | cons job queue =>
      simp only [RunStore.pop, first]
      have queued : job.id ∈ ids s.runs.queue := by simp [first]
      exact RunStore.get_modify_ne RunStore.begun_id
        (apart.2.2 id (List.mem_append_right _ ended) _ queued)
  | complete job outcome holds =>
    refine ⟨by simpa using Or.inl (by simpa using ended), ?_⟩
    have held : job.id ∈ ids s.held := by simp [holds]
    exact RunStore.get_modify_ne _ ((List.nodup_append.mp apart.1).2.2 _ held id ended).symm
  | prune clock later between => exact ⟨ended, RunStore.get_prune clock⟩
  | pass later onward => exact ⟨ended, rfl⟩

/-- **The record of a job that has ended stays until a pruning finds it too old**, and then it is
gone for good. -/
theorem get_of_ended_iff {later : List (Transition Lane LaneEvent)}
    {earlier : List (Transition Lane LaneEvent)} {last : Transition Lane LaneEvent}
    (run : (lane capacity ttl).Run (later ++ last :: earlier) s) {id : String} {record : RunRecord}
    (ended : id ∈ ids (last.after.ended.map Prod.fst))
    (found : last.after.runs.get id = some record) (done : record.status = .done) :
    id ∈ ids (s.ended.map Prod.fst) ∧
      (s.runs.get id = some record ↔ ∀ taken ∈ later, ∀ clock, taken.label = .prune clock →
        clock id - record.created < ttl) := by
  induction later generalizing s with
  | nil =>
    cases run with
    | next earlier step =>
      exact ⟨ended, iff_of_true found fun _ inside => absurd inside List.not_mem_nil⟩
  | cons taken later ih =>
    cases run with
    | @next _ middle _ event before step =>
      obtain ⟨ended', ih⟩ := ih before
      obtain ⟨ended'', same⟩ := (consistent_invariant.of_run before).get_of_ended step ended'
      refine ⟨ended'', ?_⟩
      rw [List.forall_mem_cons, ← ih, same]
      cases event with
      | prune clock =>
        have key : middle.runs.get id = some record → record.id = id := Table.get_key
        have fixed := (fixed_invariant.of_run before).2
        simp only [remains, Option.filter_eq_some_iff, LaneEvent.prune.injEq, forall_eq']
        rw [and_comm]
        refine and_congr_left fun here => ?_
        simp [RunStore.kept, done, key here, fixed]
      | _ => simp [remains]

end Lane

/-- A pruning reads the clock before the end of the run. -/
theorem Lane.clock_le {capacity ttl : Nat} {steps : List (Transition Lane LaneEvent)} {s : Lane}
    (run : (lane capacity ttl).Run steps s) {taken : Transition Lane LaneEvent}
    (inside : taken ∈ steps) {clock : String → Nat} (prunes : taken.label = .prune clock)
    (id : String) : clock id ≤ s.now := by
  obtain ⟨-, step⟩ := Lane.consistent_invariant.of_transition run inside
  refine le_trans ?_ (Lane.now_le run inside).2
  obtain ⟨before, label, after⟩ := taken
  obtain rfl := prunes
  change Lane.Step before (.prune clock) after at step
  cases step with
  | prune _ later between => exact (between id).2

/-- **How long an outcome is kept.** A completed run has a record that tells its outcome. It is
there until the first pruning that finds it to be `ttl` old, counted from the submission of the run,
and gone after that; so it is there at every moment less than `ttl` after the submission. -/
theorem outcome_kept_iff {capacity ttl : Nat} {later earlier : List (Transition Lane LaneEvent)}
    {before after s : Lane} {job : RunJob} {outcome : Except String JudgeResult}
    (run : (lane capacity ttl).Run
      (later ++ ⟨before, .complete job outcome, after⟩ :: earlier) s) :
    ∃ record submitted, Lane.SubmittedAt earlier job.id submitted ∧
      after.runs.get job.id = some record ∧ record.Tells outcome ∧
      (s.runs.get job.id = some record ↔ ∀ taken ∈ later, ∀ clock, taken.label = .prune clock →
        clock job.id - submitted < ttl) ∧
      (s.now < submitted + ttl → s.runs.get job.id = some record) := by
  obtain ⟨run', step⟩ := run.split
  change Lane.Step before (.complete job outcome) after at step
  obtain ⟨-, record, found, tells⟩ := (Lane.consistent_invariant.of_run run').lossless step
  obtain ⟨old, found', same⟩ | ⟨_, _, submits, -⟩ := step.created found
  · have submitted := same ▸ Lane.submitted_at run' found'
    have ended : job.id ∈ Lane.ids (after.ended.map Prod.fst) := by
      cases step with
      | complete _ _ holds => simp
    obtain ⟨-, kept⟩ := Lane.get_of_ended_iff run ended found tells.status
    refine ⟨record, record.created, submitted, found, tells, kept, fun early => kept.mpr ?_⟩
    intro taken inside clock prunes
    have read := Lane.clock_le run (List.mem_append_left _ inside) prunes job.id
    obtain ⟨first, inside', _, _, _, -, -, moment⟩ := submitted
    obtain ⟨ordered, last⟩ :=
      Lane.now_le run (List.mem_append_right _ (List.mem_cons_of_mem _ inside'))
    omega
  · cases submits

/-! ### A run that waits -/

def sampleRun : RunJob where
  id := "r"
  language := "python"
  source := "print(1)"
  tests := []
  timeLimitMs := 1000
  memoryLimitKb := 1024
  comparer := .lines

/-- A run with a TTL of 600 waits for 600, is completed, and one later it is pruned. -/
theorem run_waited : ∃ earlier before after s, (lane 256 600).Run
    ([⟨after, .prune fun _ => 601, s⟩] ++
      ⟨before, .complete sampleRun (.error "sandbox down"), after⟩ :: earlier) s ∧
    after.now = 600 ∧ s.now = 601 ∧ (after.runs.get "r").isSome ∧ s.runs.get "r" = none := by
  have run : (lane 256 600).Run [] ⟨.new 256 600, 0, [], [], [], []⟩ := .start ⟨0, rfl⟩
  have run := run.next (Lane.Step.submit sampleRun "r" 0 List.not_mem_nil)
  have run := run.next (Lane.Step.pass 600 (by decide))
  have run := run.next Lane.Step.pop
  have run := run.next (@Lane.Step.complete _ [] [] sampleRun (.error "sandbox down") rfl)
  have run := run.next (Lane.Step.prune (fun _ => 601) 601 fun _ => by decide)
  exact ⟨_, _, _, _, run, rfl, rfl, rfl, rfl⟩

/-- Of two runs one is popped, completed and pruned, and the other one waits. -/
theorem run_lane_consistent_sample : ∃ steps s, (lane 256 600).Run steps s ∧
    steps.map Transition.label = [.prune fun _ => 601, .complete sampleRun (.error "sandbox down"),
      .pop, .pass 600, .submit sampleRun "q" 1, .submit sampleRun "r" 0] ∧
    Lane.ids s.accepted = ["r", "q"] ∧ s.accepted = s.popped ++ s.runs.queue ∧
    s.popped.Perm (s.held ++ s.ended.map Prod.fst) ∧ s.runs.get "r" = none ∧
    (∃ record, s.runs.get "q" = some record ∧ record.status = .queued) ∧
    ∀ taken ∈ steps, Lane.Lossless taken := by
  have run : (lane 256 600).Run [] ⟨.new 256 600, 0, [], [], [], []⟩ := .start ⟨0, rfl⟩
  have run := run.next (Lane.Step.submit sampleRun "r" 0 List.not_mem_nil)
  have run := run.next (Lane.Step.submit sampleRun "q" 1 (by decide))
  have run := run.next (Lane.Step.pass 600 (by decide))
  have run := run.next Lane.Step.pop
  have run := run.next (@Lane.Step.complete _ [] [] sampleRun (.error "sandbox down") rfl)
  have run := run.next (Lane.Step.prune (fun _ => 601) 601 fun _ => by decide)
  obtain ⟨⟨-, -, queued⟩, ⟨parted, -⟩, ⟨order, -⟩, -, lossless⟩ := run_lane_consistent run
  exact ⟨_, _, run, rfl, rfl, order, parted, rfl, (queued "q").mp (by decide), lossless⟩

theorem outcome_kept_iff_sample : ∃ later earlier before after s, (lane 256 600).Run
    (later ++ ⟨before, .complete sampleRun (.error "sandbox down"), after⟩ :: earlier) s ∧
    ∃ record submitted, Lane.SubmittedAt earlier "r" submitted ∧
      after.runs.get "r" = some record ∧ record.Tells (.error "sandbox down") ∧
      (s.runs.get "r" = some record ↔ ∀ taken ∈ later, ∀ clock, taken.label = .prune clock →
        clock "r" - submitted < 600) := by
  obtain ⟨earlier, before, after, s, run, -⟩ := run_waited
  obtain ⟨record, submitted, started, found, tells, kept, -⟩ := outcome_kept_iff run
  exact ⟨_, earlier, before, after, s, run, record, submitted, started, found, tells, kept⟩

/-- **An outcome is discarded one moment after it was stored.** -/
theorem outcome_discarded : ¬ ∀ (capacity ttl : Nat)
    (later earlier : List (Transition Lane LaneEvent)) (before after s : Lane) (job : RunJob)
    (outcome : Except String JudgeResult),
    (lane capacity ttl).Run (later ++ ⟨before, .complete job outcome, after⟩ :: earlier) s →
    s.now < after.now + ttl → s.runs.get job.id = after.runs.get job.id := by
  intro always
  obtain ⟨earlier, before, after, s, run, completed, now, stored, gone⟩ := run_waited
  have kept := always _ _ _ _ _ _ _ _ _ run (by omega)
  have same : s.runs.get "r" = after.runs.get "r" := kept
  rw [← same, gone] at stored
  cases stored

end Codexec.Server
