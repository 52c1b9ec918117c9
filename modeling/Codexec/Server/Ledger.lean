/-
**The replies of the store add up.**

`healthz` reports how many submissions wait. The number is what the replies of all calls so far say
it is: created ones, less claimed ones, plus those that a failed attempt, a sweep or a start-up put
back. Only a worker that writes after its submission was put back is counted twice, or out of turn;
`Ledger.late` counts those writes. In the same way every submission that is done was reported as
ended once (`replies_add_up`).
-/

import Codexec.Server.Listing

namespace Codexec.Server

open Codexec Codexec.Library Machine

/-! ### Counting rows -/

/-- The number of submissions with a status. -/
def Store.count (self : Store) (status : Status) : Nat :=
  self.submissions.affected fun row => decide (row.status = status)

section Counting

variable {store : Store} {status : Status}

theorem queueDepth_works {world : World} (works : world.fault 0 = none) :
    store.queueDepth world = .ok (store.count .queued) := by
  rw [Store.queueDepth, World.statement_of_none works]
  rfl

/-- **Rewriting one row** moves it from one count to another. -/
theorem count_set {id : String} {row : Row} (found : store.submissions.get id = some row)
    (change : Change) (status : Status) :
    (store.set id change).count status + (decide (row.status = status)).toNat =
      store.count status + (decide ((change.set row).status = status)).toNat :=
  Table.affected_rewrite found change.set change.keepsId _

theorem length_set {id : String} {change : Change} :
    (store.set id change).submissions.rows.length = store.submissions.rows.length :=
  List.length_map _

end Counting

/-! ### What a call reports -/

/-- What the replies of calls report. -/
structure Ledger where
  created : Nat := 0
  claimed : Nat := 0
  requeued : Nat := 0
  ended : Nat := 0
  /-- Writes of workers to a submission that is back in the queue. -/
  late : Nat := 0

def Ledger.add (one two : Ledger) : Ledger :=
  ⟨one.created + two.created, one.claimed + two.claimed, one.requeued + two.requeued,
    one.ended + two.ended, one.late + two.late⟩

/-- Whether a submission waits, as a number. -/
def Store.waits (self : Store) (id : String) : Nat :=
  ((self.submissions.get id).any fun row => decide (row.status = .queued)).toNat

/-- The entry of a call. -/
def Op.reports (store : Store) : Op → Ledger
  | .insert world new =>
    match (store.insert world new).1 with
    | .ok (_, true) => { created := 1 }
    | _ => {}
  | .claimNext world leaseMs =>
    match (store.claimNext world leaseMs).1 with
    | .ok (some _) => { claimed := 1 }
    | _ => {}
  | .progress _ _ _ _ _ _ => {}
  | .finish world token problemVersion judgeVersion result =>
    match (store.finish world token.id token.attempt problemVersion judgeVersion result).1 with
    | .ok true => { ended := 1, late := store.waits token.id }
    | _ => {}
  | .failAttempt world token maxAttempts error =>
    match (store.failAttempt world token.id token.attempt maxAttempts error).1 with
    | .ok (some .done) => { ended := 1, late := store.waits token.id }
    | .ok (some _) => { requeued := 1, late := store.waits token.id }
    | _ => {}
  | .sweep world maxAttempts =>
    match (store.sweep world maxAttempts).1 with
    | .ok report => { requeued := report.requeued, ended := report.failed }
    | .error _ => {}
  | .requeueInflight world =>
    match (store.requeueInflight world).1 with
    | .ok n => { requeued := n }
    | .error _ => {}

/-- The entries of a run. -/
def books : List (Transition Queue Op) → Ledger
  | [] => {}
  | taken :: earlier => (books earlier).add (taken.label.reports taken.before.store)

/-! ### One call -/

/-- What an entry says of the tables before and after the call. -/
structure Booked (store after : Store) (entry : Ledger) : Prop where
  rows : after.submissions.rows.length = store.submissions.rows.length + entry.created
  waiting : after.count .queued + entry.claimed + entry.late =
    store.count .queued + entry.created + entry.requeued
  done : after.count .done = store.count .done + entry.ended

namespace Booked

variable {store : Store}

theorem same (store : Store) : Booked store store {} := ⟨rfl, rfl, rfl⟩

/-- **A worker's write** that found its row. -/
theorem write {id : String} {row : Row} (found : store.submissions.get id = some row)
    (live : row.status ≠ .done) (change : Change) {ended requeued : Nat}
    (done : (decide ((change.set row).status = .done)).toNat = ended)
    (queued : (decide ((change.set row).status = .queued)).toNat = requeued) :
    Booked store (store.set id change)
      { ended := ended, requeued := requeued, late := store.waits id } := by
  have out := count_set found change .queued
  have ends := count_set found change .done
  have waits : store.waits id = (decide (row.status = .queued)).toNat := by
    rw [Store.waits, found]
    rfl
  rw [decide_eq_false live] at ends
  refine ⟨length_set, ?_, ?_⟩
  · show _ + 0 + store.waits id = _ + 0 + requeued
    rw [waits, ← queued]
    exact out
  · show _ = _ + ended
    rw [← done]
    exact ends

/-- A row that leaves the queue for a worker. -/
theorem claim {id : String} {row : Row} (found : store.submissions.get id = some row)
    (queued : row.status = .queued) (world : World) (leaseMs : Int64) :
    Booked store (store.set id (claimed world leaseMs)) { claimed := 1 } := by
  have out := count_set found (claimed world leaseMs) .queued
  have ends := count_set found (claimed world leaseMs) .done
  rw [queued] at out ends
  exact ⟨length_set, out, ends⟩

/-- A status in flight is neither of the other two. -/
theorem flies {status : Status} (flying : status.inFlight = true) :
    decide (status = .queued) = false ∧ decide (status = .done) = false := by
  cases status <;> first | exact ⟨rfl, rfl⟩ | cases flying

/-- A row in flight that stays in flight. -/
theorem progress {id : String} {row : Row} (found : store.submissions.get id = some row)
    (flying : row.status.inFlight = true) (change : Change)
    (still : (change.set row).status.inFlight = true) :
    Booked store (store.set id change) {} := by
  have out := count_set found change .queued
  have ends := count_set found change .done
  rw [(flies flying).1, (flies still).1] at out
  rw [(flies flying).2, (flies still).2] at ends
  exact ⟨length_set, out, ends⟩

/-- A new row. -/
theorem insert {world : World} {new : NewSubmission} {after : Store}
    (into : Store.Inserted store world new after) : Booked store after { created := 1 } := by
  have counts (status : Status) : after.count status =
      store.count status + (decide (Status.queued = status)).toNat := by
    rw [Store.count, Table.affected, into.rows, List.countP_append]
    cases status <;> rfl
  refine ⟨?_, counts .queued, counts .done⟩
  rw [into.rows, List.length_append]
  rfl

/-- Rows in flight that go back to the queue or are given up. -/
theorem moves {after : Store} {change : Row → Row} {back ends : Row → Bool}
    (keeps : ∀ row, (change row).id = row.id)
    (each : ∀ id, after.submissions.get id = (store.submissions.get id).map change)
    (queued : ∀ row, (decide ((change row).status = .queued)).toNat =
      (decide (row.status = .queued)).toNat + (back row).toNat)
    (done : ∀ row, (decide ((change row).status = .done)).toNat =
      (decide (row.status = .done)).toNat + (ends row).toNat) :
    Booked store after
      { requeued := store.submissions.affected back, ended := store.submissions.affected ends } := by
  have perm := Table.rows_perm_map keeps each
  have counts (status : Status) : after.count status =
      store.submissions.rows.countP fun row => decide ((change row).status = status) := by
    rw [Store.count, Table.affected, perm.countP_eq, List.countP_map]
    rfl
  refine ⟨?_, ?_, ?_⟩
  · rw [perm.length_eq, List.length_map]
    rfl
  · rw [counts, Table.countP_add fun row _ => queued row]
    rfl
  · rw [counts, Table.countP_add fun row _ => done row]
    rfl

end Booked

theorem sweptRow_id (world : World) (maxAttempts : UInt32) (row : Row) :
    (sweptRow world maxAttempts row).id = row.id := by
  unfold sweptRow
  split
  · rfl
  · split <;> rfl

/-- What a sweep does to the counts of a row. -/
theorem sweptRow_counts (world : World) (maxAttempts : UInt32) (row : Row) :
    (decide ((sweptRow world maxAttempts row).status = .queued)).toNat =
        (decide (row.status = .queued)).toNat + (recoverable world.now maxAttempts row).toNat ∧
      (decide ((sweptRow world maxAttempts row).status = .done)).toNat =
        (decide (row.status = .done)).toNat + (hopeless world.now maxAttempts row).toNat := by
  rw [recoverable_iff, sweptRow]
  by_cases passed : expired world.now row = true
  · obtain ⟨waiting, done⟩ := Booked.flies (inFlight_of_expired passed)
    rw [passed, waiting, done]
    by_cases lost : hopeless world.now maxAttempts row = true
    · rw [if_pos lost, lost]
      exact ⟨rfl, rfl⟩
    · rw [if_neg lost, if_pos rfl, Bool.eq_false_iff.mpr lost]
      exact ⟨rfl, rfl⟩
  · have kept : hopeless world.now maxAttempts row = false := by
      rw [hopeless, Bool.eq_false_iff.mpr passed, Bool.false_and]
    rw [kept, Bool.eq_false_iff.mpr passed, if_neg Bool.false_ne_true, if_neg Bool.false_ne_true]
    exact ⟨rfl, rfl⟩

/-- A row that a start-up finds. -/
def restartedRow (row : Row) : Row :=
  if row.status.inFlight then (requeued Row.error).set row else row

theorem restartedRow_counts (row : Row) :
    (decide ((restartedRow row).status = .queued)).toNat =
        (decide (row.status = .queued)).toNat + row.status.inFlight.toNat ∧
      (decide ((restartedRow row).status = .done)).toNat =
        (decide (row.status = .done)).toNat + false.toNat := by
  rw [restartedRow]
  by_cases flying : row.status.inFlight = true
  · obtain ⟨waiting, done⟩ := Booked.flies flying
    rw [if_pos flying, flying, waiting, done]
    exact ⟨rfl, rfl⟩
  · rw [if_neg flying, Bool.eq_false_iff.mpr flying]
    exact ⟨rfl, rfl⟩

/-- **Every call is booked.** -/
theorem Op.booked {state : Queue} (op : Op) (permitted : op.Permitted state.issued) :
    Booked state.store (op.after state.store) (op.reports state.store) := by
  cases op with
  | insert world new =>
    rcases state.store.insert_cases world new with ⟨same, none⟩ | ⟨next, done, into⟩
    · have silent : (Op.insert world new).reports state.store = {} := by
        simp only [reports]
      rw [silent, show (Op.insert world new).after state.store = state.store from same]
      exact .same _
    · simp only [reports, after, done]
      exact .insert into
  | claimNext world leaseMs =>
    rcases state.store.claimNext_cases world leaseMs with
      ⟨same, none⟩ | ⟨row, source, oldest, stored, done⟩
    · have silent : (Op.claimNext world leaseMs).reports state.store = {} := by
        simp only [reports]
      rw [silent, show (Op.claimNext world leaseMs).after state.store = state.store from same]
      exact .same _
    · obtain ⟨found, queued, _⟩ := Store.oldest_spec oldest
      simp only [reports, after, done]
      exact .claim found queued world leaseMs
  | progress world token status testsDone testsTotal leaseMs =>
    simp only [reports, after, Store.progress]
    rcases state.store.execute_owned_cases world token.id token.attempt Status.inFlight
      (progressed world status testsDone testsTotal leaseMs) (· == 1) with
      ⟨e, failed⟩ | ⟨row, found, _, flying, done⟩ | ⟨_, passed⟩
    · rw [failed]
      exact .same _
    · rw [done]
      exact .progress found flying _ permitted.2
    · rw [passed]
      exact .same _
  | finish world token problemVersion judgeVersion result =>
    simp only [reports, after, Store.finish]
    rcases state.store.execute_owned_cases world token.id token.attempt (· != .done)
      (finished world problemVersion judgeVersion result) (· == 1) with
      ⟨e, failed⟩ | ⟨row, found, _, live, done⟩ | ⟨_, passed⟩
    · rw [failed]
      exact .same _
    · rw [done]
      exact .write found (bne_iff_ne.mp live) _ rfl rfl
    · rw [passed]
      exact .same _
  | failAttempt world token maxAttempts error =>
    simp only [reports, after, Store.failAttempt]
    split
    · rcases state.store.execute_owned_cases world token.id token.attempt (· != .done)
        (givenUp world fun _ => error) (fun n => if n = 1 then some Status.done else none) with
        ⟨e, failed⟩ | ⟨row, found, _, live, done⟩ | ⟨_, passed⟩
      · rw [failed]
        exact .same _
      · rw [done]
        exact .write found (bne_iff_ne.mp live) _ rfl rfl
      · rw [passed]
        exact .same _
    · rcases state.store.execute_owned_cases world token.id token.attempt (· != .done)
        (requeued fun _ => some error) (fun n => if n = 1 then some Status.queued else none) with
        ⟨e, failed⟩ | ⟨row, found, _, live, done⟩ | ⟨_, passed⟩
      · rw [failed]
        exact .same _
      · rw [done]
        exact .write found (bne_iff_ne.mp live) _ rfl rfl
      · rw [passed]
        exact .same _
  | sweep world maxAttempts =>
    simp only [reports, after]
    rcases state.store.sweep_cases world maxAttempts with ⟨e, failed⟩ | ⟨next, done, _, each⟩
    · rw [failed]
      exact .same _
    · rw [done]
      exact .moves (sweptRow_id world maxAttempts) each
        (fun row => (sweptRow_counts world maxAttempts row).1)
        fun row => (sweptRow_counts world maxAttempts row).2
  | requeueInflight world =>
    simp only [reports, after]
    rcases state.store.requeueInflight_cases world with ⟨e, failed⟩ | ⟨_, done⟩
    · rw [failed]
      exact .same _
    · rw [done]
      have keeps : ∀ row, (restartedRow row).id = row.id := by
        intro row
        unfold restartedRow
        split <;> rfl
      have each : ∀ id, (state.store.update (fun row => row.status.inFlight)
          (requeued Row.error)).submissions.get id =
            (state.store.submissions.get id).map restartedRow := fun _ => Store.get_update
      have booked := Booked.moves keeps each
        (fun row => (restartedRow_counts row).1) fun row => (restartedRow_counts row).2
      have none : state.store.submissions.affected (fun _ => false) = 0 :=
        congrFun List.countP_false _
      rw [none] at booked
      exact booked

/-! ### All calls of a run -/

/-- The tables are what the replies say. -/
structure Balanced (ledger : Ledger) (store : Store) : Prop where
  rows : store.submissions.rows.length = ledger.created
  waiting : store.count .queued + ledger.claimed + ledger.late = ledger.created + ledger.requeued
  done : store.count .done = ledger.ended

theorem Balanced.booked {ledger entry : Ledger} {store after : Store}
    (balanced : Balanced ledger store) (booked : Booked store after entry) :
    Balanced (ledger.add entry) after := by
  have rows := booked.rows
  have waiting := booked.waiting
  have done := booked.done
  rw [balanced.rows] at rows
  rw [balanced.done] at done
  refine ⟨rows, ?_, done⟩
  have before := balanced.waiting
  show after.count .queued + (ledger.claimed + entry.claimed) + (ledger.late + entry.late) =
    ledger.created + entry.created + (ledger.requeued + entry.requeued)
  omega

theorem balanced_of_run {steps : List (Transition Queue Op)} {state : Queue}
    (run : queue.Run steps state) : Balanced (books steps) state.store := by
  induction run with
  | start initial =>
    cases initial
    exact ⟨rfl, rfl, rfl⟩
  | @next steps state after op earlier step ih =>
    obtain ⟨permitted, rfl⟩ := step
    exact ih.booked (op.booked permitted)

/-- The reply of `healthz`. -/
structure Health where
  queuedSubmissions : Nat
  queuedRuns : Nat
  problems : Nat
  languages : Nat

def healthz (settings : Settings) (store : Store) (runs : RunStore) (world : World) :
    Except ApiError Health := do
  let queued ← orInternal (store.queueDepth world)
  return ⟨queued, runs.queue.length, settings.problems.rows.length,
    settings.judge.languages.languages.length⟩

/-- **The replies add up**, over any interleaving of calls: as many rows as submissions were created,
as many of them DONE as were reported to have ended, and `healthz` reports as waiting what was created
or put back and neither claimed since nor written by a worker that came late. -/
theorem replies_add_up {steps : List (Transition Queue Op)} {state : Queue}
    (run : queue.Run steps state) :
    state.store.submissions.rows.length = (books steps).created ∧
      state.store.count .done = (books steps).ended ∧
        ∀ settings runs (world : World), world.fault 0 = none →
          ∃ health, healthz settings state.store runs world = .ok health ∧
            health.queuedSubmissions + (books steps).claimed + (books steps).late =
              (books steps).created + (books steps).requeued := by
  have balanced := balanced_of_run run
  refine ⟨balanced.rows, balanced.done, fun settings runs world works => ?_⟩
  have replies : healthz settings state.store runs world =
      .ok ⟨state.store.count .queued, runs.queue.length, settings.problems.rows.length,
        settings.judge.languages.languages.length⟩ := by
    rw [healthz, queueDepth_works works]
    rfl
  exact ⟨_, replies, balanced.waiting⟩

/-! ### Claims without anything in between -/

/-- The rows that wait. -/
def Store.waiting (self : Store) : List Row :=
  self.submissions.rows.filter fun row => decide (row.status = .queued)

/-- The job that a claim returned. -/
def jobs : Except StoreError (Option Job) → List Job
  | .ok (some job) => [job]
  | _ => []

/-- The jobs that claims return, one after the other. -/
def claimAll : List (World × Int64) → Store → List Job
  | [], _ => []
  | (world, leaseMs) :: calls, store =>
    jobs (store.claimNext world leaseMs).1 ++ claimAll calls (store.claimNext world leaseMs).2

/-- The oldest row has the highest place. -/
def seniority (row : Row) : (Int ×ₗ String)ᵒᵈ := OrderDual.toDual (rank row)

theorem nodup_seniority (store : Store) : (store.waiting.map seniority).Nodup := by
  have ids : (store.waiting.map seniority).map (fun place => (ofLex (OrderDual.ofDual place)).2) =
      store.waiting.map Row.id := by
    rw [List.map_map]
    rfl
  refine List.Nodup.of_map (fun place => (ofLex (OrderDual.ofDual place)).2) ?_
  rw [ids]
  exact store.submissions.keysNodup.sublist (List.filter_sublist.map Row.id)

theorem mem_waiting {store : Store} {row : Row} :
    row ∈ store.waiting ↔ store.submissions.get row.id = some row ∧ row.status = .queued := by
  rw [Store.waiting, List.mem_filter, decide_eq_true_eq, Table.get_eq_some]
  simp

/-- A claim takes one row out of those that wait. -/
theorem mem_waiting_claimed {store : Store} {row : Row} (world : World) (leaseMs : Int64)
    {other : Row} : other ∈ (store.set row.id (claimed world leaseMs)).waiting ↔
      other ∈ store.waiting ∧ other.id ≠ row.id := by
  rw [mem_waiting, mem_waiting, Store.get_set]
  by_cases same : row.id = other.id
  · rw [if_pos same]
    constructor
    · rintro ⟨found, queued⟩
      obtain ⟨old, _, rfl⟩ := Option.map_eq_some_iff.mp found
      cases queued
    · rintro ⟨_, different⟩
      exact absurd same.symm different
  · rw [if_neg same]
    exact ⟨fun waits => ⟨waits, Ne.symm same⟩, fun waits => waits.1⟩

/-- **A claim that no fault disturbs takes the oldest row.** -/
theorem claimNext_works {store : Store} (sourced : Sourced store) {world : World} (leaseMs : Int64)
    (works : ∀ n, world.fault n = none) {row : Row} (oldest : store.oldest = some row) :
    ∃ source, store.claimNext world leaseMs =
      (.ok (some (jobOf ((claimed world leaseMs).set row) source)),
        store.set row.id (claimed world leaseMs)) := by
  rcases store.claimNext_cases world leaseMs with ⟨_, idle⟩ | ⟨row', source, oldest', _, done⟩
  · exfalso
    cases reply : (store.claimNext world leaseMs).1 with
    | error e =>
      obtain ⟨n, fails⟩ := claimNext_error sourced reply
      rw [works n] at fails
      cases fails
    | ok claimed =>
      cases claimed with
      | some job => exact idle job reply
      | none =>
        rw [oldest_eq_none.mpr (claimNext_none.mp reply).2] at oldest
        cases oldest
  · cases oldest.symm.trans oldest'
    exact ⟨source.source, done⟩

theorem sourced_set {store : Store} (sourced : Sourced store) (id : String) (change : Change) :
    Sourced (store.set id change) := by
  intro wanted row found
  rw [Store.get_set] at found
  split at found
  · obtain ⟨old, held, _⟩ := Option.map_eq_some_iff.mp found
    exact sourced wanted old held
  · exact sourced wanted row found

/-- **Claims drain the queue in order.** -/
theorem claimAll_eq {store : Store} (sourced : Sourced store) {calls : List (World × Int64)}
    (works : ∀ call ∈ calls, ∀ n, call.1.fault n = none) :
    (claimAll calls store).map Job.id =
      (newest seniority calls.length store.waiting).map Row.id := by
  induction calls generalizing store with
  | nil => rfl
  | cons call calls ih =>
    obtain ⟨world, leaseMs⟩ := call
    have here := works _ List.mem_cons_self
    have later : ∀ call ∈ calls, ∀ n, call.1.fault n = none :=
      fun call inside => works call (List.mem_cons_of_mem _ inside)
    cases oldest : store.oldest with
    | none =>
      have empty : store.waiting = [] := by
        rw [List.eq_nil_iff_forall_not_mem]
        intro row waits
        obtain ⟨found, queued⟩ := mem_waiting.mp waits
        exact oldest_eq_none.mp oldest row (Table.get_eq_some.mp found).1 queued
      have reply : (store.claimNext world leaseMs).1 = .ok none :=
        claimNext_none.mpr ⟨here 0, oldest_eq_none.mp oldest⟩
      have same : (store.claimNext world leaseMs).2 = store :=
        (claimNext_oldestFirst sourced world leaseMs).same fun job claims => by
          rw [reply] at claims
          cases claims
      rw [claimAll, reply, same]
      show (claimAll calls store).map Job.id = _
      rw [ih sourced later, empty, newest_nil, newest_nil]
    | some row =>
      obtain ⟨source, done⟩ := claimNext_works sourced leaseMs here oldest
      obtain ⟨found, queued, least⟩ := Store.oldest_spec oldest
      have waits := mem_waiting.mpr ⟨found, queued⟩
      have rest := newest_isNewest (nodup_seniority (store.set row.id (claimed world leaseMs)))
        calls.length
      have split : ∀ other, other ∈ (store.set row.id (claimed world leaseMs)).waiting ↔
          other ∈ store.waiting ∧ other ≠ row := by
        intro other
        rw [mem_waiting_claimed]
        refine and_congr_right fun inside => not_congr ⟨fun same => ?_, fun same => by rw [same]⟩
        have held := (mem_waiting.mp inside).1
        rw [same, found] at held
        exact (Option.some.inj held).symm
      have highest : ∀ other ∈ (store.set row.id (claimed world leaseMs)).waiting,
          seniority other < seniority row := by
        intro other inside
        obtain ⟨before, different⟩ := (split other).mp inside
        obtain ⟨held, waiting⟩ := mem_waiting.mp before
        refine lt_of_le_of_ne (least other (Table.get_eq_some.mp held).1 waiting) fun same => ?_
        have ids : other.id = row.id := congrArg (fun place => (ofLex (OrderDual.ofDual place)).2) same
        rw [ids, found] at held
        exact different (Option.some.inj held).symm
      have all := (newest_isNewest (nodup_seniority store) (calls.length + 1)).unique
        (rest.cons waits split highest)
      rw [claimAll, done, List.length_cons, all, List.map_cons, ← ih (sourced_set sourced _ _) later]
      rfl

/-- **What waits is what can be claimed.** In every reachable state, claims that nothing disturbs hand
out the submissions that wait, oldest first and each of them once, as many as `queue_depth` says. -/
theorem claims_drain_queue {state : Queue} (reachable : queue.Reachable state)
    {calls : List (World × Int64)} (works : ∀ call ∈ calls, ∀ n, call.1.fault n = none) :
    (claimAll calls state.store).map Job.id =
        (newest seniority calls.length state.store.waiting).map Row.id ∧
      (claimAll calls state.store).length = min calls.length (state.store.count .queued) := by
  have drained := claimAll_eq (sourced_invariant.of_reachable reachable) works
  refine ⟨drained, ?_⟩
  have lengths := congrArg List.length drained
  rwa [List.length_map, List.length_map, length_newest, Store.waiting,
    ← List.countP_eq_length_filter] at lengths

/-! ### A write that comes late -/

/-- Judged by one worker while the sweeper has given the submission back to the queue. -/
def lateOps : List Op :=
  [.insert (worldAt 0) sampleSubmission, .claimNext (worldAt 10) 5, .sweep (worldAt 20) 3,
    .finish (worldAt 30) ⟨"s1", 1⟩ "v1" "j" sampleResult]

theorem lateOps_permitted : Queue.Permits ⟨.empty, []⟩ lateOps := by
  refine ⟨trivial, trivial, trivial, ?_, trivial⟩
  show (⟨"s1", 1⟩ : Token) ∈ Queue.issued _
  decide

theorem lateOps_run : queue.Run (Queue.trace ⟨.empty, []⟩ lateOps [])
    (lateOps.foldl Queue.perform ⟨.empty, []⟩) :=
  Queue.run_trace (.start rfl) lateOps_permitted

theorem replies_add_up_sample :
    (lateOps.foldl Queue.perform ⟨.empty, []⟩).store.count .done = 1 ∧
      (books (Queue.trace ⟨.empty, []⟩ lateOps [])).late = 1 :=
  ⟨(replies_add_up lateOps_run).2.1.trans (by decide), by decide⟩

theorem claims_drain_queue_sample :
    (claimAll [(worldAt 50, 60000), (worldAt 51, 60000)]
      ((Queue.perform ⟨.empty, []⟩ (.insert (worldAt 0) sampleSubmission)).store)).length = 1 := by
  have reachable : queue.Reachable
      (Queue.perform ⟨.empty, []⟩ (.insert (worldAt 0) sampleSubmission)) :=
    ⟨_, Queue.run_trace (.start rfl)
      (show Queue.Permits ⟨.empty, []⟩ [.insert (worldAt 0) sampleSubmission] from
        ⟨trivial, trivial⟩)⟩
  refine (claims_drain_queue reachable fun call inside n => ?_).2.trans (by decide)
  rcases List.mem_pair.mp inside with rfl | rfl <;> rfl

end Codexec.Server
