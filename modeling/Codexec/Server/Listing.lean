/-
**Reading submissions back.**

`list_submissions` answers the newest submissions of a problem without their details, and
`get_submission` one of them with everything. What the list shows is determined by the rows alone
(`listing_newest`). The place of a row never changes, so over any run of the server the list is a
window onto the submissions in the order in which they were created: a new one pushes the oldest one
out, and nothing else moves it (`listing_follows`).
-/

import Codexec.Library.Window
import Codexec.Server.Fifo
import Codexec.Server.Http
import Codexec.Server.Working

namespace Codexec.Server

open Codexec Codexec.Library Machine

/-! ### The store -/

namespace Submission

/-- Per-test details are omitted from listings. -/
def brief (self : Submission) : Submission := { self with tests := none, compileOutput := none }

/-- The newest submission has the highest place. -/
def place (self : Submission) : Int ×ₗ String := toLex (self.createdAtMs.toInt, self.id)

end Submission

/-- `?1 IS NULL OR problem = ?1` -/
def concerns (problem : Option String) (row : Row) : Bool :=
  problem.all fun slug => decide (row.problem = slug)

namespace Store

variable (self : Store)

/-- `Store::list` -/
def list (world : World) (problem : Option String) (limit : UInt32) :
    Except StoreError (List Submission) :=
  match world.statement 0 with
  | .error e => .error e
  | .ok () =>
    let rows := newest rank limit.toNat (self.submissions.rows.filter (concerns problem))
    .ok (rows.map fun row => row.toSubmission.brief)

/-- `Store::queue_depth` -/
def queueDepth (world : World) : Except StoreError Nat :=
  match world.statement 0 with
  | .error e => .error e
  | .ok () => .ok (self.submissions.affected fun row => decide (row.status = .queued))

end Store

/-! ### The handlers -/

/-- Whatever the store reports is answered with status 500. -/
def orInternal {α : Type} : Except StoreError α → Except ApiError α
  | .ok value => .ok value
  | .error _ => .error .internal

structure ListQuery where
  problem : Option String
  limit : Option UInt32

/-- `u32::clamp` -/
def clamp (value least most : UInt32) : UInt32 :=
  if value < least then least else if most < value then most else value

/-- `q.limit.unwrap_or(20).clamp(1, 100)` -/
def ListQuery.count (self : ListQuery) : UInt32 := clamp (self.limit.getD 20) 1 100

def listSubmissions (store : Store) (world : World) (q : ListQuery) :
    Except ApiError (List Submission) :=
  orInternal (store.list world q.problem q.count)

def getSubmission (store : Store) (world : World) (id : String) : Except ApiError Submission := do
  let sub ← orInternal (store.get world id)
  orNotFound "submission" sub

/-! ### What a list shows -/

/-- The places of the rows that a list is about. -/
def Store.places (self : Store) (problem : Option String) : List (Int ×ₗ String) :=
  (self.submissions.rows.filter (concerns problem)).map rank

theorem nodup_places (store : Store) (problem : Option String) : (store.places problem).Nodup := by
  have ids : ((store.places problem).map fun place => (ofLex place).2) =
      (store.submissions.rows.filter (concerns problem)).map Row.id := by
    rw [Store.places, List.map_map]
    rfl
  refine List.Nodup.of_map (fun place => (ofLex place).2) ?_
  rw [ids]
  exact store.submissions.keysNodup.sublist (List.filter_sublist.map Row.id)

/-- What the places of two states have in common is decided by their rows. -/
theorem mem_places {store : Store} {problem : Option String} {place : Int ×ₗ String} :
    place ∈ store.places problem ↔ ∃ id row, store.submissions.get id = some row ∧
      concerns problem row = true ∧ rank row = place := by
  simp only [Store.places, List.mem_map, List.mem_filter]
  constructor
  · rintro ⟨row, ⟨inside, concerned⟩, same⟩
    exact ⟨row.id, row, Table.get_of_mem inside, concerned, same⟩
  · rintro ⟨id, row, found, concerned, same⟩
    exact ⟨row, ⟨(Table.get_eq_some.mp found).1, concerned⟩, same⟩

/-- **A list**: the newest submissions of a problem, newest first, as they are now. -/
structure Lists (store : Store) (q : ListQuery) (subs : List Submission) : Prop where
  ordered : subs.Pairwise fun one two => two.place < one.place
  shown : ∀ sub ∈ subs, ∃ row, store.submissions.get sub.id = some row ∧
    concerns q.problem row = true ∧ sub = row.toSubmission.brief
  bounded : subs.length ≤ q.count.toNat
  /-- Whatever is left out is older than all that is shown, and there is no room for it. -/
  full : ∀ id row, store.submissions.get id = some row → concerns q.problem row = true →
    id ∉ subs.map Submission.id →
      subs.length = q.count.toNat ∧ ∀ sub ∈ subs, row.toSubmission.place < sub.place

theorem ListQuery.count_bounds (q : ListQuery) : 1 ≤ q.count ∧ q.count ≤ 100 := by
  unfold count clamp
  generalize q.limit.getD 20 = limit
  split
  · exact ⟨UInt32.le_refl 1, by decide⟩
  · next more =>
    split
    · exact ⟨by decide, UInt32.le_refl 100⟩
    · next less => exact ⟨UInt32.not_lt.mp more, UInt32.not_lt.mp less⟩

/-- A row among those a list is about. -/
theorem mem_concerned {store : Store} {problem : Option String} {row : Row}
    (inside : row ∈ store.submissions.rows.filter (concerns problem)) :
    store.submissions.get row.id = some row ∧ concerns problem row = true := by
  obtain ⟨member, concerned⟩ := List.mem_filter.mp inside
  exact ⟨Table.get_of_mem member, concerned⟩

theorem lists_newest (store : Store) (q : ListQuery) :
    Lists store q ((newest rank q.count.toNat
      (store.submissions.rows.filter (concerns q.problem))).map fun row => row.toSubmission.brief) := by
  obtain ⟨ordered, inside, bounded, full⟩ :=
    newest_isNewest (nodup_places store q.problem) q.count.toNat
  refine ⟨List.pairwise_map.mpr ordered, ?_, by rw [List.length_map]; exact bounded, ?_⟩
  · intro sub shown
    obtain ⟨row, listed, rfl⟩ := List.mem_map.mp shown
    obtain ⟨found, concerned⟩ := mem_concerned (inside row listed)
    exact ⟨row, found, concerned, rfl⟩
  · intro id row found concerned missing
    have key : row.id = id := Table.get_key found
    have member := List.mem_filter.mpr ⟨(Table.get_eq_some.mp found).1, concerned⟩
    have absent : row ∉ newest rank q.count.toNat
        (store.submissions.rows.filter (concerns q.problem)) := by
      intro listed
      refine missing (List.mem_map.mpr ⟨_, List.mem_map_of_mem listed, ?_⟩)
      exact key
    obtain ⟨filled, older⟩ := full row member absent
    refine ⟨by rw [List.length_map]; exact filled, fun sub shown => ?_⟩
    obtain ⟨other, listed, rfl⟩ := List.mem_map.mp shown
    exact older other listed

/-- **A list shows exactly the newest submissions**, each as `get_submission` does but without the
details, and at least one and at most a hundred of them. -/
theorem listing_newest (store : Store) {world : World} (works : world.fault 0 = none)
    (q : ListQuery) : ∃ subs, listSubmissions store world q = .ok subs ∧ Lists store q subs ∧
      1 ≤ q.count ∧ q.count ≤ 100 ∧
        ∀ sub ∈ subs, ∃ full, getSubmission store world sub.id = .ok full ∧ sub = full.brief := by
  have lists := lists_newest store q
  refine ⟨_, ?_, lists, q.count_bounds.1, q.count_bounds.2, ?_⟩
  · rw [listSubmissions, Store.list, World.statement_of_none works]
    rfl
  · intro sub shown
    obtain ⟨row, found, _, same⟩ := lists.shown sub shown
    refine ⟨row.toSubmission, ?_, same⟩
    rw [getSubmission, Store.get_of_row found works]
    rfl

theorem works_of_list {store : Store} {world : World} {problem : Option String} {limit : UInt32}
    {subs : List Submission} (listed : store.list world problem limit = .ok subs) :
    world.fault 0 = none := by
  unfold Store.list at listed
  split at listed
  · cases listed
  · next works => exact World.works_of_statement works

/-! ### What a list shows over a run -/

namespace Store

/-- The places that a list shows. -/
def window (self : Store) (problem : Option String) (limit : Nat) : List (Int ×ₗ String) :=
  newest id limit (self.places problem)

/-- **The window is what the list shows.** -/
theorem places_of_list {self : Store} {world : World} {problem : Option String} {limit : UInt32}
    {subs : List Submission} (listed : self.list world problem limit = .ok subs) :
    subs.map Submission.place = self.window problem limit.toNat := by
  unfold list at listed
  split at listed
  · cases listed
  · cases listed
    rw [List.map_map, window, places, ← map_newest]
    rfl

/-- The same places, the same window. -/
theorem window_congr {self after : Store} {problem : Option String} {limit : Nat}
    (same : ∀ place, place ∈ after.places problem ↔ place ∈ self.places problem) :
    after.window problem limit = self.window problem limit := by
  refine newest_perm ?_ ?_ limit
  · rw [List.map_id]
    exact nodup_places after problem
  · rw [List.perm_ext_iff_of_nodup (nodup_places after problem) (nodup_places self problem)]
    exact same

end Store

/-- No call changes what a submission was made for. -/
theorem RowStep.concerns {op : Op} {row next : Row} (step : RowStep op row next)
    (problem : Option String) : concerns problem next = concerns problem row := by
  rw [Server.concerns, Server.concerns, step.submitted.1]

/-- The place that a call adds to those a list is about. -/
def Op.adds (problem : Option String) (store : Store) : Op → List (Int ×ₗ String)
  | .insert world new =>
    match (store.insert world new).1 with
    | .ok (sub, true) => if concerns problem (queuedRow world new) then [sub.place] else []
    | _ => []
  | _ => []

/-- A call that inserts no row leaves the places as they are. -/
theorem places_of_stale {state : Queue} {op : Op} (problem : Option String)
    (stale : ∀ id row, (state.perform op).store.submissions.get id = some row →
      ∃ old, state.store.submissions.get id = some old) (place : Int ×ₗ String) :
    place ∈ (state.perform op).store.places problem ↔ place ∈ state.store.places problem := by
  rw [mem_places, mem_places]
  constructor
  · rintro ⟨id, next, found, concerned, rfl⟩
    obtain ⟨row, held⟩ := stale id next found
    obtain ⟨next', found', moved⟩ := op.row_cases held
    cases found.symm.trans found'
    exact ⟨id, row, held, by rw [← moved.concerns]; exact concerned, moved.rank.symm⟩
  · rintro ⟨id, row, held, concerned, rfl⟩
    obtain ⟨next, found, moved⟩ := op.row_cases held
    exact ⟨id, next, found, by rw [moved.concerns]; exact concerned, moved.rank⟩

theorem adds_of_inserted {state : Queue} {world : World} {new : NewSubmission}
    (once : inserted ⟨state, .insert world new, state.perform (.insert world new)⟩ = [world])
    (problem : Option String) : (Op.insert world new).adds problem state.store =
      if concerns problem (queuedRow world new) then [world.rank] else [] := by
  have reply : (state.store.insert world new).1 =
      .ok ((queuedRow world new).toSubmission, true) := by
    rcases state.store.insert_cases world new with ⟨_, none⟩ | ⟨after, done, _⟩
    · cases reply : (state.store.insert world new).1 with
      | error e => simp [inserted, reply] at once
      | ok pair =>
        obtain ⟨sub, fresh⟩ := pair
        cases fresh with
        | false => simp [inserted, reply] at once
        | true => exact absurd reply (none sub)
    · rw [done]
  simp only [Op.adds, reply]
  rfl

/-- **A call moves a window by the place that it adds, or not at all.** -/
theorem window_perform (state : Queue) (op : Op) (problem : Option String) (limit : Nat) :
    (state.perform op).store.window problem limit =
      (op.adds problem state.store).foldl (push limit) (state.store.window problem limit) := by
  rcases inserted_cases state op with ⟨none, stale⟩ | ⟨world, new, rfl, once, into⟩
  · have nothing : op.adds problem state.store = [] := by
      cases op with
      | insert world new =>
        simp only [inserted] at none
        simp only [Op.adds]
        split
        · next added => simp [added] at none
        · rfl
      | _ => rfl
    rw [nothing, List.foldl_nil]
    exact Store.window_congr (places_of_stale problem stale)
  · have distinct := nodup_places (state.perform (.insert world new)).store problem
    rw [adds_of_inserted once]
    rw [Store.places, into.rows, List.filter_append, List.map_append] at distinct
    rw [Store.window, Store.places, into.rows, List.filter_append, List.map_append]
    by_cases concerned : concerns problem (queuedRow world new) = true
    · rw [List.filter_cons_of_pos concerned, List.filter_nil] at distinct ⊢
      rw [if_pos concerned]
      exact newest_append distinct
    · rw [List.filter_cons_of_neg concerned, List.filter_nil, List.map_nil, List.append_nil,
        if_neg concerned]
      rfl

section Server

variable [Host]

/-- The place that an action of the server adds. -/
def added (problem : Option String) (taken : Transition System Event) : List (Int ×ₗ String) :=
  match taken.label with
  | .insert world new => (Op.insert world new).adds problem taken.before.queue.store
  | _ => []

/-- The places in the order in which a run has created them. -/
def created (problem : Option String) : List (Transition System Event) → List (Int ×ₗ String)
  | [] => []
  | taken :: earlier => created problem earlier ++ added problem taken

theorem adds_storeOp (problem : Option String) (store : Store) (settings : Settings)
    (world : World) (job : Job) (judged : Problem) (outcome : Except JudgeError JudgeResult) :
    (storeOp settings world job judged outcome).adds problem store = [] := by
  unfold storeOp
  split <;> rfl

/-- **An action of the server moves a window by what it adds.** -/
theorem Step.window {s after : System} {event : Event} (step : Step s event after)
    (problem : Option String) (limit : Nat) : after.queue.store.window problem limit =
      (added problem ⟨s, event, after⟩).foldl (push limit) (s.queue.store.window problem limit) := by
  cases step with
  | insert world new => exact window_perform _ _ _ _
  | claim _ _ _ => exact window_perform _ _ _ _
  | abandon _ _ _ _ => exact window_perform _ _ _ _
  | heartbeat _ _ _ _ _ writes =>
    subst writes
    exact window_perform _ _ _ _
  | store _ _ _ writes =>
    subst writes
    refine (window_perform _ _ _ _).trans ?_
    rw [adds_storeOp]
    rfl
  | sweep _ _ => exact window_perform _ _ _ _
  | restart _ _ _ => exact window_perform _ _ _ _
  | _ => rfl

/-- A submission keeps its place. -/
theorem Step.places {s after : System} {event : Event} (step : Step s event after)
    {problem : Option String} {place : Int ×ₗ String} (there : place ∈ s.queue.store.places problem) :
    place ∈ after.queue.store.places problem := by
  rw [mem_places] at there ⊢
  obtain ⟨id, row, found, concerned, rfl⟩ := there
  obtain ⟨next, found', moved⟩ := Step.row_cases step found
  refine ⟨id, next, found', ?_⟩
  rcases moved with rfl | ⟨op, _, moved⟩
  · exact ⟨concerned, rfl⟩
  · exact ⟨by rw [moved.concerns]; exact concerned, moved.rank⟩

/-- A place that is no longer shown has been overtaken by as many as the list shows. -/
def Overtaken (before after : List (Int ×ₗ String)) (limit : Nat) : Prop :=
  ∀ place ∈ before, place ∉ after → after.length = limit ∧ ∀ shown ∈ after, place < shown

/-- **A window follows the submissions one by one.** -/
theorem window_of_run {steps : List (Transition System Event)} {s : System}
    (run : system.Run steps s) (problem : Option String) (limit : Nat) :
    s.queue.store.window problem limit = (created problem steps).foldl (push limit) [] := by
  induction run with
  | start initial =>
    obtain ⟨settings, rfl⟩ := initial
    exact List.take_nil
  | next earlier step ih => rw [Step.window step, ih, created, List.foldl_append]

theorem overtaken_of_run {steps : List (Transition System Event)} {s : System}
    (run : system.Run steps s) {taken : Transition System Event} (member : taken ∈ steps)
    (problem : Option String) (limit : Nat) :
    Overtaken (taken.before.queue.store.window problem limit)
      (s.queue.store.window problem limit) limit := by
  intro place shown missing
  have distinct : ((s.queue.store.places problem).map id).Nodup := by
    rw [List.map_id]
    exact nodup_places _ _
  have there : place ∈ s.queue.store.places problem := by
    refine run.stays (fun s => place ∈ s.queue.store.places problem)
      (fun _ _ _ step there => Step.places step there) member ?_
    exact (List.perm_insertionSort _ _).mem_iff.mp (List.mem_of_mem_take shown)
  exact (newest_isNewest distinct limit).full place there missing

/-- **A list follows the submissions one by one.** After any run, whatever was claimed, judged, failed,
swept or restarted in between, a list shows what is left of the submissions of its problem when each
of them in turn has been put in its place and the oldest one dropped if there were too many. So what
an earlier list showed is shown again, unless enough newer submissions have been created. -/
theorem listing_follows {steps : List (Transition System Event)} {s : System}
    (run : system.Run steps s) {world : World} {problem : Option String} {limit : UInt32}
    {subs : List Submission} (listed : s.queue.store.list world problem limit = .ok subs) :
    subs.map Submission.place = (created problem steps).foldl (push limit.toNat) [] ∧
      ∀ taken ∈ steps, ∀ world' earlier,
        taken.before.queue.store.list world' problem limit = .ok earlier →
          Overtaken (earlier.map Submission.place) (subs.map Submission.place) limit.toNat := by
  rw [Store.places_of_list listed]
  refine ⟨window_of_run run problem _, fun taken member world' earlier listed' => ?_⟩
  rw [Store.places_of_list listed']
  exact overtaken_of_run run member problem _

end Server

/-! ### Lists of two -/

/-- A call that creates a submission under another id, later. -/
def laterWorld : World := ⟨7, "s2", fun _ => none⟩

/-- Three submissions, the last two in the same millisecond. -/
def threeOps : List Op :=
  [.insert (worldAt 0) sampleSubmission, .insert laterWorld sampleSubmission,
    .insert { laterWorld with newId := "s3" } sampleSubmission]

theorem listing_newest_sample : let store := (threeOps.foldl Queue.perform ⟨.empty, []⟩).store
    ∃ subs, listSubmissions store (worldAt 9) ⟨some "p", some 2⟩ = .ok subs ∧
      subs.map Submission.id = ["s3", "s2"] ∧ ∀ sub ∈ subs,
        ∃ full, getSubmission store (worldAt 9) sub.id = .ok full ∧ sub = full.brief := by
  obtain ⟨subs, listed, -, -, -, each⟩ :=
    listing_newest (threeOps.foldl Queue.perform ⟨.empty, []⟩).store
      (show (worldAt 9).fault 0 = none from rfl) ⟨some "p", some 2⟩
  refine ⟨subs, listed, ?_, each⟩
  cases listed
  decide

theorem listing_follows_sample : letI := plainHost
    ∃ s subs, system.Reachable s ∧ s.queue.store.list (worldAt 9) none 1 = .ok subs ∧
      subs.map Submission.place = [toLex (7, "s2")] := by
  let host := plainHost
  have run := (run_started sampleSettings).next (Step.insert (worldAt 0) sampleSubmission)
  have run := run.next (Step.insert laterWorld sampleSubmission)
  have listed : (((started sampleSettings).perform (.insert (worldAt 0) sampleSubmission)).perform
      (.insert laterWorld sampleSubmission)).queue.store.list (worldAt 9) none 1 = .ok _ := rfl
  exact ⟨_, _, ⟨_, run⟩, listed, (listing_follows run listed).1.trans (by decide)⟩

end Codexec.Server
