/-
**The queue is first in, first out.**

`claim_next` takes the queued row with the least creation time and id (`OldestFirst`). Requeued rows
keep their place, so over a whole run the rows that were never claimed are the last ones that were
inserted. `Fifo` is that invariant: the insertions of a run are its first claims, followed by the
submissions that still wait for theirs.
-/

import Codexec.Server.Fencing
import Codexec.Server.Shape

namespace Codexec.Server

open Codexec Codexec.Library

/-! ### One claim -/

/-- A claim of a row: which one, what is returned and what it changes. -/
structure ClaimOf (store : Store) (world : World) (leaseMs : Int64) (job : Job) (after : Store)
    (row : Row) : Prop where
  found : store.submissions.get row.id = some row
  queued : row.status = .queued
  least : ∀ other ∈ store.submissions.rows, other.status = .queued → rank row ≤ rank other
  id : job.id = row.id
  problem : job.problem = row.problem
  language : job.language = row.language
  attempt : job.attempt = UInt32.ofNat (row.attempt + 1)
  source : store.sources.get row.id = some ⟨row.id, job.source⟩
  changed : after.submissions.get row.id = some
    { row with
      status := .compiling
      attempt := row.attempt + 1
      leaseUntilMs := some (world.now + leaseMs)
      testsDone := 0 }
  others : ∀ id ≠ row.id, after.submissions.get id = store.submissions.get id
  sources : after.sources = store.sources

/-- What `claim_next` does on a store. -/
structure OldestFirst (store : Store) (world : World) (leaseMs : Int64) : Prop where
  claims : ∀ job, (store.claimNext world leaseMs).1 = .ok (some job) →
    ∃ row, ClaimOf store world leaseMs job (store.claimNext world leaseMs).2 row
  idle : (store.claimNext world leaseMs).1 = .ok none ↔
    world.fault 0 = none ∧ ∀ row ∈ store.submissions.rows, row.status ≠ .queued
  /-- Without a job nothing changes. -/
  same : (∀ job, (store.claimNext world leaseMs).1 ≠ .ok (some job)) →
    (store.claimNext world leaseMs).2 = store
  fails : ∀ e, (store.claimNext world leaseMs).1 = .error e → ∃ n, world.fault n = some e

theorem oldest_eq_none {store : Store} :
    store.oldest = none ↔ ∀ row ∈ store.submissions.rows, row.status ≠ .queued := by
  rw [Store.oldest, Table.first, List.argmin_eq_none, List.filter_eq_nil_iff]
  simp

theorem claimNext_none {store : Store} {world : World} {leaseMs : Int64} :
    (store.claimNext world leaseMs).1 = .ok none ↔
      world.fault 0 = none ∧ ∀ row ∈ store.submissions.rows, row.status ≠ .queued := by
  rw [← oldest_eq_none]
  constructor
  · intro idle
    unfold Store.claimNext at idle
    rcases store.transaction_cases _ with ⟨e, failed⟩ | ⟨value, after, ran, done⟩
    · rw [failed] at idle
      cases idle
    · rw [done] at idle
      cases idle
      obtain ⟨_, works, ran⟩ := Store.of_bind_eq_ok ran
      refine ⟨World.works_of_statement works, ?_⟩
      cases found : store.oldest with
      | none => rfl
      | some row =>
        rw [found] at ran
        obtain ⟨_, _, ran⟩ := Store.of_bind_eq_ok ran
        cases stored : (store.update (fun other => decide (other.id = row.id))
            (claimed world leaseMs)).sources.get row.id with
        | none =>
          rw [stored] at ran
          cases ran
        | some source =>
          rw [stored] at ran
          obtain ⟨_, _, ran⟩ := Store.of_bind_eq_ok ran
          cases ran
  · rintro ⟨works, empty⟩
    rw [Store.claimNext, World.statement_of_none works, empty]
    rfl

theorem claimNext_oldestFirst {store : Store} (sourced : Sourced store) (world : World)
    (leaseMs : Int64) : OldestFirst store world leaseMs := by
  refine ⟨fun job claims => ?_, claimNext_none, fun idle => ?_, fun e => claimNext_error sourced⟩
  · rcases store.claimNext_cases world leaseMs with ⟨_, idle⟩ | ⟨row, source, oldest, stored, done⟩
    · exact absurd claims (idle job)
    · obtain ⟨held, queued, least⟩ := Store.oldest_spec oldest
      rw [done] at claims
      cases claims
      rw [done]
      refine ⟨row, held, queued, least, rfl, rfl, rfl, rfl, ?_, ?_, fun id other => ?_, ?_⟩
      · rw [stored]
        have key := Table.get_key stored
        cases source
        cases key
        rfl
      · rw [Store.get_set, if_pos rfl, held]
        rfl
      · rw [Store.get_set, if_neg (Ne.symm other)]
      · rw [Store.sources_set]
  · rcases store.claimNext_cases world leaseMs with ⟨same, _⟩ | ⟨row, source, oldest, stored, done⟩
    · exact same
    · exact absurd (by rw [done]) (idle _)

/-! ### Histories -/

/-- The world of a call that inserted a submission. -/
def inserted (taken : Transition Queue Op) : List World :=
  match taken.label with
  | .insert world new =>
    match (taken.before.store.insert world new).1 with
    | .ok (_, true) => [world]
    | _ => []
  | _ => []

/-- The insertions of a run, oldest first. -/
def insertions : List (Transition Queue Op) → List World
  | [] => []
  | taken :: earlier => insertions earlier ++ inserted taken

/-- The submissions that a call claimed. -/
def claims (taken : Transition Queue Op) : List String :=
  (taken.label.issues taken.before.store).map Token.id

/-- The submissions that were claimed in a run, in the order of their first claims. -/
def firstClaims : List (Transition Queue Op) → List String
  | [] => []
  | taken :: earlier =>
    firstClaims earlier ++ (claims taken).filter fun id => id ∉ firstClaims earlier

/-- The clock never goes back between insertions, and ids grow. -/
structure Ticking (steps : List (Transition Queue Op)) : Prop where
  clock : (insertions steps).Pairwise fun earlier later => earlier.now ≤ later.now
  ids : (insertions steps).Pairwise fun earlier later => earlier.newId < later.newId

/-- The place in the queue of a submission that is inserted. -/
def World.rank (world : World) : Int ×ₗ String := toLex (world.now.toInt, world.newId)

theorem Ticking.earlier {taken : Transition Queue Op} {steps : List (Transition Queue Op)}
    (ticking : Ticking (taken :: steps)) : Ticking steps :=
  ⟨(List.pairwise_append.mp ticking.clock).1, (List.pairwise_append.mp ticking.ids).1⟩

/-- **Insertions queue up in their order.** -/
theorem Ticking.ranks {steps : List (Transition Queue Op)} (ticking : Ticking steps) :
    (insertions steps).Pairwise fun earlier later => earlier.rank < later.rank := by
  refine ticking.clock.imp₂ (fun earlier later clock ids => ?_) ticking.ids
  rw [World.rank, World.rank, Prod.Lex.toLex_lt_toLex]
  rcases Int.lt_or_eq_of_le (Int64.le_iff_toInt_le.mp clock) with before | same
  · exact .inl before
  · exact .inr ⟨same, ids⟩

theorem Ticking.nodup {steps : List (Transition Queue Op)} (ticking : Ticking steps) :
    ((insertions steps).map World.newId).Nodup := by
  rw [List.Nodup, List.pairwise_map]
  exact ticking.ids.imp fun less => ne_of_lt less

/-! ### Rows that were never claimed -/

/-- A row that was never claimed is queued. -/
def Unclaimed (state : Queue) : Prop :=
  ∀ id row, state.store.submissions.get id = some row → row.attempt = 0 → row.status = .queued

/-- The row of a token was claimed. -/
theorem attempt_ne_zero_of_issued {state : Queue} (fenced : state.Fenced) {token : Token}
    {row : Row} (issued : token ∈ state.issued)
    (found : state.store.submissions.get token.id = some row) : row.attempt ≠ 0 := by
  intro never
  have inside : token ∈ state.tokens token.id :=
    List.mem_filter.mpr ⟨issued, decide_eq_true rfl⟩
  have counts := fenced token.id
  rw [Store.attempts_of_get found, never, countdown, List.map_eq_nil_iff] at counts
  rw [counts] at inside
  cases inside

/-- **Only a claim moves a row that was never claimed.** -/
theorem RowStep.of_unclaimed {state : Queue} (fenced : state.Fenced) {op : Op} {row next : Row}
    (permitted : op.Permitted state.issued) (found : state.store.submissions.get row.id = some row)
    (step : RowStep op row next) (never : row.attempt = 0) (queued : row.status = .queued) :
    next = row ∨ next.attempt = row.attempt + 1 := by
  have grounded : row.status.inFlight = false := by
    rw [queued]
    rfl
  rcases step.of_grounded grounded with same | ⟨_, more⟩ | ⟨_, token, writes, key⟩
  · exact .inl same
  · exact .inr more
  · -- A worker writes with a token that a claim returned, and this row was never claimed.
    rw [key] at found
    exact absurd never (attempt_ne_zero_of_issued fenced (permitted.issued writes) found)

theorem unclaimed_invariant : queue.Invariant fun state => state.Fenced ∧ Unclaimed state where
  start state initial := by
    refine ⟨fenced_invariant.start state initial, ?_⟩
    rintro id row found
    cases initial
    cases found
  step := by
    rintro state op after ⟨fenced, unclaimed⟩ step
    refine ⟨fenced_invariant.step _ _ _ fenced step, ?_⟩
    obtain ⟨permitted, rfl⟩ := step
    intro id next found never
    cases held : state.store.submissions.get id with
    | none =>
      obtain ⟨world, new, _, _, rfl, _⟩ := Op.row_new held found
      rfl
    | some row =>
      obtain ⟨next', found', moved⟩ := Op.row_cases op held
      cases found.symm.trans found'
      have zero : row.attempt = 0 := by
        rcases moved.attempt with same | ⟨_, _, _, more⟩
        · rw [← same, never]
        · rw [never] at more
          cases more
      have queued := unclaimed id row held zero
      have stored : state.store.submissions.get row.id = some row := by
        rw [Table.get_key held, held]
      rcases moved.of_unclaimed fenced permitted stored zero queued with rfl | more
      · exact queued
      · rw [never] at more
        cases more

/-! ### The order of first claims -/

/-- No call changes the place of a row. -/
theorem RowStep.rank {op : Op} {row next : Row} (step : RowStep op row next) :
    rank next = rank row := by
  cases step <;> rfl

/-- A call inserts a submission, or no row is new. -/
theorem inserted_cases (state : Queue) (op : Op) :
    inserted ⟨state, op, state.perform op⟩ = [] ∧
        (∀ id row, (state.perform op).store.submissions.get id = some row →
          ∃ old, state.store.submissions.get id = some old) ∨
      ∃ world new, op = .insert world new ∧ inserted ⟨state, op, state.perform op⟩ = [world] ∧
        Store.Inserted state.store world new (state.perform op).store := by
  have stale (idle : ∀ world new, op = .insert world new → (op.after state.store) = state.store)
      (id : String) (row : Row) (found : (op.after state.store).submissions.get id = some row) :
      ∃ old, state.store.submissions.get id = some old := by
    cases held : state.store.submissions.get id with
    | some old => exact ⟨old, rfl⟩
    | none =>
      obtain ⟨world, new, insertion, _, _, _⟩ := Op.row_new held found
      rw [idle world new insertion, held] at found
      cases found
  cases op with
  | insert world new =>
    rcases state.store.insert_cases world new with ⟨same, none⟩ | ⟨after, done, into⟩
    · refine .inl ⟨?_, stale fun _ _ _ => same⟩
      cases reply : (state.store.insert world new).1 with
      | error e => simp only [inserted, reply]
      | ok pair =>
        obtain ⟨sub, created⟩ := pair
        cases created with
        | false => simp only [inserted, reply]
        | true => exact absurd reply (none sub)
    · refine .inr ⟨world, new, rfl, ?_, ?_⟩
      · simp only [inserted, done]
      · show Store.Inserted state.store world new (state.store.insert world new).2
        rw [done]
        exact into
  | _ => exact .inl ⟨rfl, stale fun _ _ insertion => by cases insertion⟩

/-- **First claims follow the insertions**: the submissions of a run are those that were claimed, in
the order of their first claims, and then those that still wait. -/
structure Fifo (steps : List (Transition Queue Op)) (state : Queue) (waiting : List String) :
    Prop where
  split : (insertions steps).map World.newId = firstClaims steps ++ waiting
  placed : ∀ world ∈ insertions steps, ∃ row,
    state.store.submissions.get world.newId = some row ∧ rank row = world.rank
  known : ∀ id row, state.store.submissions.get id = some row →
    id ∈ (insertions steps).map World.newId
  claimed : ∀ id ∈ firstClaims steps, 0 < state.store.attempts id
  waits : ∀ id ∈ waiting, state.store.attempts id = 0

section Step

variable {steps : List (Transition Queue Op)} {state : Queue} {waiting : List String} {op : Op}

theorem Fifo.insert (fifo : Fifo steps state waiting) {world : World} {new : NewSubmission}
    (insertion : op = .insert world new)
    (added : inserted ⟨state, op, state.perform op⟩ = [world])
    (into : Store.Inserted state.store world new (state.perform op).store) :
    Fifo (⟨state, op, state.perform op⟩ :: steps) (state.perform op)
      (waiting ++ [world.newId]) := by
  have idle : claims ⟨state, op, state.perform op⟩ = [] := by
    rw [insertion]
    rfl
  have counts (id : String) : (state.perform op).store.attempts id = state.store.attempts id := by
    rw [Store.attempts, Store.attempts, into.row]
    split
    · rename_i own
      rw [← own, into.fresh]
      rfl
    · rfl
  refine ⟨?_, ?_, ?_, ?_, ?_⟩
  · rw [insertions, added, firstClaims, idle, List.map_append, fifo.split]
    simp
  · intro world' inside
    rw [insertions, added, List.mem_append, List.mem_singleton] at inside
    rcases inside with old | rfl
    · obtain ⟨row, found, place⟩ := fifo.placed world' old
      have other : world.newId ≠ world'.newId := by
        intro same
        rw [← same, into.fresh] at found
        cases found
      exact ⟨row, by rw [into.row, if_neg other, found], place⟩
    · exact ⟨_, (into.row _).trans (if_pos rfl), rfl⟩
  · intro id row found
    rw [insertions, added, List.map_append, List.mem_append]
    rw [into.row] at found
    split at found
    · rename_i own
      exact .inr (by rw [← own]; exact List.mem_singleton_self _)
    · exact .inl (fifo.known id row found)
  · intro id inside
    rw [firstClaims, idle, List.filter_nil, List.append_nil] at inside
    rw [counts]
    exact fifo.claimed id inside
  · intro id inside
    rw [counts]
    rcases List.mem_append.mp inside with old | new
    · exact fifo.waits id old
    · rw [List.mem_singleton.mp new, Store.attempts, into.fresh]
      rfl

/-- A call that inserts nothing and claims nothing for the first time. -/
theorem Fifo.other (fifo : Fifo steps state waiting)
    (added : inserted ⟨state, op, state.perform op⟩ = [])
    (stale : ∀ id row, (state.perform op).store.submissions.get id = some row →
      ∃ old, state.store.submissions.get id = some old) {later : List String}
    (split : firstClaims steps ++ waiting =
      firstClaims (⟨state, op, state.perform op⟩ :: steps) ++ later)
    (claimed : ∀ id ∈ firstClaims (⟨state, op, state.perform op⟩ :: steps),
      0 < (state.perform op).store.attempts id)
    (waits : ∀ id ∈ later, (state.perform op).store.attempts id = 0) :
    Fifo (⟨state, op, state.perform op⟩ :: steps) (state.perform op) later := by
  have same : insertions (⟨state, op, state.perform op⟩ :: steps) = insertions steps := by
    rw [insertions, added, List.append_nil]
  refine ⟨?_, ?_, ?_, claimed, waits⟩
  · rw [same, fifo.split, split]
  · intro world inside
    rw [same] at inside
    obtain ⟨row, found, place⟩ := fifo.placed world inside
    obtain ⟨next, found', moved⟩ := Op.row_cases op found
    exact ⟨next, found', moved.rank.trans place⟩
  · intro id row found
    rw [same]
    obtain ⟨old, held⟩ := stale id row found
    exact fifo.known id old held

/-- **The first of those that wait is the oldest.** -/
theorem Fifo.head {first : String} {rest : List String} (fifo : Fifo steps state (first :: rest))
    (ticking : Ticking steps) (unclaimed : Unclaimed state) {row : Row}
    (oldest : state.store.oldest = some row) : row.id ∉ rest := by
  intro inside
  obtain ⟨held, _, least⟩ := Store.oldest_spec oldest
  obtain ⟨before, after, whole, _, waiting⟩ := List.map_eq_append_iff.mp fifo.split
  obtain ⟨head, tail, rfl, rfl, rfl⟩ := List.map_eq_cons_iff.mp waiting
  obtain ⟨world, later, same⟩ := List.mem_map.mp inside
  have ranks := ticking.ranks
  rw [whole] at ranks
  have less := (List.pairwise_cons.mp (List.pairwise_append.mp ranks).2.1).1 world later
  obtain ⟨old, found, place⟩ := fifo.placed head (by simp [whole])
  obtain ⟨young, found', place'⟩ := fifo.placed world (by simp [whole, later])
  rw [same, held] at found'
  cases found'
  have never := fifo.waits head.newId List.mem_cons_self
  rw [Store.attempts_of_get found] at never
  have queued := unclaimed _ old found never
  have order := least old (Table.get_eq_some.mp found).1 queued
  rw [place, place'] at order
  exact absurd less (not_lt.mpr order)

/-- A call that claims a row. -/
theorem Fifo.claim (fifo : Fifo steps state waiting) (ticking : Ticking steps)
    (unclaimed : Unclaimed state) (added : inserted ⟨state, op, state.perform op⟩ = [])
    (stale : ∀ id row, (state.perform op).store.submissions.get id = some row →
      ∃ old, state.store.submissions.get id = some old)
    {row : Row} (oldest : state.store.oldest = some row)
    (taken : claims ⟨state, op, state.perform op⟩ = [row.id])
    (counts : ∀ id, (state.perform op).store.attempts id =
      if row.id = id then state.store.attempts id + 1 else state.store.attempts id) :
    ∃ later, Fifo (⟨state, op, state.perform op⟩ :: steps) (state.perform op) later := by
  have grows (id : String) (before : 0 < state.store.attempts id) :
      0 < (state.perform op).store.attempts id := by
    rw [counts]
    split <;> omega
  by_cases again : row.id ∈ firstClaims steps
  · have first : firstClaims (⟨state, op, state.perform op⟩ :: steps) = firstClaims steps := by
      simp [firstClaims, taken, again]
    refine ⟨waiting, fifo.other added stale (by rw [first]) ?_ fun id inside => ?_⟩
    · rw [first]
      exact fun id inside => grows id (fifo.claimed id inside)
    · have never := fifo.waits id inside
      have other : row.id ≠ id := by
        rintro rfl
        exact absurd never (Nat.ne_of_gt (fifo.claimed _ again))
      rw [counts, if_neg other, never]
  · have first : firstClaims (⟨state, op, state.perform op⟩ :: steps) =
        firstClaims steps ++ [row.id] := by
      simp [firstClaims, taken, again]
    have known := fifo.known row.id row (Store.oldest_spec oldest).1
    rw [fifo.split, List.mem_append] at known
    cases waiting with
    | nil => cases known.resolve_left again
    | cons head rest =>
      have late := fifo.head ticking unclaimed oldest
      have same : row.id = head := (List.mem_cons.mp (known.resolve_left again)).resolve_right late
      refine ⟨rest, fifo.other added stale ?_ ?_ fun id inside => ?_⟩
      · rw [first, same, List.append_assoc, List.singleton_append]
      · rw [first]
        intro id inside
        rcases List.mem_append.mp inside with old | new
        · exact grows id (fifo.claimed id old)
        · rw [counts, if_pos (List.mem_singleton.mp new).symm]
          exact Nat.succ_pos _
      · have other : row.id ≠ id := fun same => late (by rwa [same])
        rw [counts, if_neg other]
        exact fifo.waits id (List.mem_cons_of_mem _ inside)

theorem Fifo.step (fifo : Fifo steps state waiting)
    (ticking : Ticking (⟨state, op, state.perform op⟩ :: steps)) (unclaimed : Unclaimed state) :
    ∃ later, Fifo (⟨state, op, state.perform op⟩ :: steps) (state.perform op) later := by
  rcases inserted_cases state op with ⟨added, stale⟩ | ⟨world, new, insertion, added, into⟩
  · rcases op.attempts_cases state.store with ⟨idle, same⟩ | ⟨id, issued, counts⟩
    · have first : firstClaims (⟨state, op, state.perform op⟩ :: steps) = firstClaims steps := by
        simp [firstClaims, claims, idle]
      refine ⟨waiting, fifo.other added stale (by rw [first]) ?_ fun id inside => ?_⟩
      · rw [first]
        exact fun id inside => Nat.lt_of_lt_of_eq (fifo.claimed id inside) (same id).symm
      · exact (same id).trans (fifo.waits id inside)
    · rcases op.issues_cases state.store with idle | ⟨_, _, row, _, _, oldest, _, _, issued', _⟩
      · cases idle.symm.trans issued
      · have own : row.id = id := congrArg Token.id (List.cons.inj (issued'.symm.trans issued)).1
        subst own
        refine fifo.claim ticking.earlier unclaimed added stale oldest ?_ counts
        rw [claims, issued, List.map_singleton]
  · exact ⟨_, fifo.insert insertion added into⟩

end Step

theorem fifo_of_run {steps : List (Transition Queue Op)} {state : Queue}
    (run : queue.Run steps state) (ticking : Ticking steps) :
    ∃ waiting, Fifo steps state waiting := by
  induction run with
  | start initial =>
    cases initial
    refine ⟨[], rfl, ?_, ?_, ?_, ?_⟩
    · exact fun _ inside => absurd inside List.not_mem_nil
    · exact fun _ _ found => by cases found
    · exact fun _ inside => absurd inside List.not_mem_nil
    · exact fun _ inside => absurd inside List.not_mem_nil
  | next earlier step ih =>
    obtain ⟨waiting, fifo⟩ := ih ticking.earlier
    obtain ⟨permitted, rfl⟩ := step
    exact fifo.step ticking (unclaimed_invariant.of_run earlier).2

/-- **The queue is first in, first out.** In every state that is reached, a claim takes the oldest
queued row and changes nothing else; and if the clock and the ids of the insertions of a run only
grow, submissions are claimed for the first time in the order of their insertions. -/
theorem claims_in_order {steps : List (Transition Queue Op)} {state : Queue}
    (run : queue.Run steps state) :
    (∀ world leaseMs, OldestFirst state.store world leaseMs) ∧
      (Ticking steps → firstClaims steps <+: (insertions steps).map World.newId) := by
  refine ⟨claimNext_oldestFirst (sourced_invariant.of_run run), fun ticking => ?_⟩
  obtain ⟨waiting, fifo⟩ := fifo_of_run run ticking
  rw [fifo.split]
  exact List.prefix_append _ _

/-- Two submissions of one millisecond. The first is claimed, fails, and is claimed again. -/
def retriedOps : List Op :=
  [.insert ⟨0, "s1", fun _ => none⟩ sampleSubmission,
    .insert ⟨0, "s2", fun _ => none⟩ sampleSubmission,
    .claimNext (worldAt 10) 60000,
    .failAttempt (worldAt 20) ⟨"s1", 1⟩ 3 "sandbox error",
    .claimNext (worldAt 30) 60000,
    .claimNext (worldAt 40) 60000]

example : firstClaims (Queue.trace ⟨.empty, []⟩ retriedOps []) = ["s1", "s2"] := by decide

theorem claims_in_order_sample :
    firstClaims (Queue.trace ⟨.empty, []⟩ retriedOps []) <+: ["s1", "s2"] := by
  have run : queue.Run (Queue.trace ⟨.empty, []⟩ retriedOps [])
      (retriedOps.foldl Queue.perform ⟨.empty, []⟩) := by
    refine Queue.run_trace (.start rfl) ⟨trivial, trivial, trivial, ?_, trivial, trivial, trivial⟩
    show (⟨"s1", 1⟩ : Token) ∈ Queue.issued _
    decide
  exact (claims_in_order run).2 ⟨by decide, by decide⟩

end Codexec.Server
