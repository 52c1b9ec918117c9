/-
**Requests with the same idempotency key.**

A key that `create_submission` reads from the header is stored with the row, in a column without
repetitions, and no operation changes it (`Keyed`). So all accepted requests with one header value
get one submission, and only the first of them changes the tables — exactly if the value is usable:
visible ASCII, and between 1 and 128 bytes after trimming (`deduplicated_iff`). Any other value is
ignored, and every request stores a submission of its own.
-/

import Codexec.Server.Http
import Codexec.Server.Refine

namespace Codexec.Server

open Codexec Codexec.Library Machine

/-! ### Keys in the store -/

/-- The submission is stored under the key. -/
def Keyed (key id : String) (state : Queue) : Prop :=
  ∃ row, state.store.submissions.get id = some row ∧ row.idempotencyKey = some key

/-- No operation changes a key. -/
theorem RowStep.idempotencyKey {op : Op} {row next : Row} (step : RowStep op row next) :
    next.idempotencyKey = row.idempotencyKey := by
  cases step <;> rfl

theorem Keyed.perform {key id : String} {state : Queue} (keyed : Keyed key id state) (op : Op) :
    Keyed key id (state.perform op) := by
  obtain ⟨row, found, same⟩ := keyed
  obtain ⟨next, found', moved⟩ := op.row_cases found
  exact ⟨next, found', moved.idempotencyKey.trans same⟩

/-- **One key, one submission.** -/
theorem Keyed.unique {key id id' : String} {state : Queue} (keyed : Keyed key id state)
    (keyed' : Keyed key id' state) : id = id' := by
  obtain ⟨row, found, same⟩ := keyed
  obtain ⟨row', found', same'⟩ := keyed'
  obtain ⟨stored, rfl⟩ := Table.get_eq_some.mp found
  obtain ⟨stored', rfl⟩ := Table.get_eq_some.mp found'
  rw [Table.eq_of_column state.store.uniqueKeys stored stored' same same']

namespace Store

variable {self : Store} {world : World} {new : NewSubmission} {key : String}

theorem withKey_eq_some {row : Row} (found : self.withKey key = some row) :
    self.submissions.get row.id = some row ∧ row.idempotencyKey = some key :=
  ⟨Table.get_of_mem (List.mem_of_find?_eq_some found), by simpa using List.find?_some found⟩

/-- **A repeat changes nothing and is answered with the row that is there.** -/
theorem insert_of_withKey {row : Row} (keyed : new.idempotencyKey = some key)
    (found : self.withKey key = some row) :
    (self.insert world new).2 = self ∧
      ∀ reply, (self.insert world new).1 = .ok reply → reply = (row.toSubmission, false) := by
  have existing : new.idempotencyKey.bind self.withKey = some row := by
    rw [keyed]
    exact found
  unfold insert
  rw [existing]
  rcases self.transaction_cases _ with ⟨e, failed⟩ | ⟨value, after, ran, done⟩
  · rw [failed]
    exact ⟨rfl, fun reply accepted => by cases accepted⟩
  · rw [done]
    obtain ⟨_, _, ran⟩ := of_bind_eq_ok ran
    cases ran
    exact ⟨rfl, fun reply accepted => (Except.ok.inj accepted).symm⟩

/-- The first request with a key stores a row under it. -/
theorem insert_of_fresh (keyed : new.idempotencyKey = some key) (fresh : self.withKey key = none) :
    ((self.insert world new).2 = self ∧ ∀ reply, (self.insert world new).1 ≠ .ok reply) ∨
      ∃ after, self.insert world new = (.ok ((queuedRow world new).toSubmission, true), after) ∧
        Inserted self world new after := by
  rcases self.insert_cases world new with ⟨same, refused⟩ | stored
  · refine Or.inl ⟨same, fun reply accepted => ?_⟩
    obtain ⟨sub, created⟩ := reply
    cases created with
    | true => exact refused sub accepted
    | false =>
      unfold insert at accepted
      rcases self.transaction_cases _ with ⟨e, failed⟩ | ⟨value, after, ran, done⟩
      · rw [failed] at accepted
        cases accepted
      · rw [done] at accepted
        cases accepted
        have existing : new.idempotencyKey.bind self.withKey = none := by
          rw [keyed]
          exact fresh
        rw [existing] at ran
        obtain ⟨_, _, ran⟩ := of_bind_eq_ok ran
        obtain ⟨_, _, ran⟩ := of_bind_eq_ok ran
        obtain ⟨_, _, ran⟩ := of_bind_eq_ok ran
        obtain ⟨_, _, ran⟩ := of_bind_eq_ok ran
        obtain ⟨_, _, ran⟩ := of_bind_eq_ok ran
        obtain ⟨_, _, ran⟩ := of_bind_eq_ok ran
        split at ran
        · cases ran
        · obtain ⟨_, _, ran⟩ := of_bind_eq_ok ran
          cases ran
  · exact Or.inr stored

end Store

section Server

variable [Host]

/-! ### Requests in a run -/

/-- The step is a request with this header value, and this is its reply. -/
def Carries (value : Bytes) (taken : Transition System Event)
    (reply : Except ApiError (Accepted Submission)) : Prop :=
  ∃ maxSourceBytes body world new,
    newSubmission taken.before.settings maxSourceBytes (some value) body = .ok new ∧
    taken.label = .insert world new ∧
    reply = (createSubmission taken.before.settings maxSourceBytes (some value) body world
      taken.before.queue.store).1

/-- The step is a request with this header value, and it changes the tables. -/
def Adds (value : Bytes) (taken : Transition System Event) : Prop :=
  (∃ reply, Carries value taken reply) ∧
    taken.after.queue.store ≠ taken.before.queue.store

open Classical in
/-- Accepted requests with this header value are answered with one submission, and one of them at
most changes the tables: it adds a row and a source. -/
structure Deduplicated (value : Bytes) (steps : List (Transition System Event)) : Prop where
  same : ∀ one ∈ steps, ∀ two ∈ steps, ∀ first second, Carries value one (.ok first) →
    Carries value two (.ok second) → first.body.id = second.body.id
  once : steps.countP (fun taken => decide (Adds value taken)) ≤ 1
  adds : ∀ taken ∈ steps, Adds value taken → ∃ row source,
    taken.after.queue.store.submissions.rows = taken.before.queue.store.submissions.rows ++ [row] ∧
    taken.after.queue.store.sources.rows = taken.before.queue.store.sources.rows ++ [source]

/-- The values from which a key is read. -/
def Usable (value : Bytes) : Prop :=
  ∃ text, toStr value = some text ∧ trim text ≠ [] ∧
    (utf8 (String.ofList (trim text))).length ≤ 128

omit [Host] in
theorem idempotencyKey_eq_none {value : Bytes} (unusable : ¬ Usable value) :
    idempotencyKey (some value) = none := by
  unfold idempotencyKey
  cases text : toStr value with
  | none => simp [text]
  | some text' =>
    have refused : ¬ (trim text' ≠ [] ∧ (utf8 (String.ofList (trim text'))).length ≤ 128) :=
      fun usable => unusable ⟨text', text, usable⟩
    simp only [Option.bind_some, text, Option.map_some, Option.filter_some, Option.map_eq_none_iff,
      ite_eq_right_iff, reduceCtorEq, imp_false]
    simpa using refused

omit [Host] in
theorem idempotencyKey_of_usable {value : Bytes} (usable : Usable value) :
    ∃ key, idempotencyKey (some value) = some key := by
  obtain ⟨text, read, nonempty, short⟩ := usable
  refine ⟨localUser ++ ":" ++ String.ofList (trim text), ?_⟩
  unfold idempotencyKey
  simp [read, nonempty, short]

/-- The key of the header is stored. -/
theorem newSubmission_key {settings : Settings} {maxSourceBytes : Nat} {header : Option Bytes}
    {body : CreateSubmission} {new : NewSubmission}
    (made : newSubmission settings maxSourceBytes header body = .ok new) :
    new.idempotencyKey = idempotencyKey header := by
  unfold newSubmission at made
  obtain ⟨problem, -, made⟩ := Store.of_bind_eq_ok made
  obtain ⟨_, -, made⟩ := Store.of_bind_eq_ok made
  cases made
  rfl

theorem createSubmission_of_made {settings : Settings} {maxSourceBytes : Nat}
    {header : Option Bytes} {body : CreateSubmission} {new : NewSubmission} {world : World}
    {store : Store} {sub : Submission} {created : Bool}
    (made : newSubmission settings maxSourceBytes header body = .ok new)
    (inserted : (store.insert world new).1 = .ok (sub, created)) :
    (createSubmission settings maxSourceBytes header body world store).1 =
      .ok ⟨"/v1/submissions/" ++ sub.id, sub⟩ := by
  simp only [createSubmission, made]
  split
  · next failed => exact absurd (inserted.symm.trans (congrArg Prod.fst failed)) nofun
  · next done =>
    rw [done] at inserted
    cases inserted
    rfl

/-- A step that carries a value inserts under its key. -/
theorem Carries.insert {value : Bytes} {s after : System} {event : Event}
    {reply : Except ApiError (Accepted Submission)} (carries : Carries value ⟨s, event, after⟩ reply)
    (step : Step s event after) :
    ∃ world new, new.idempotencyKey = idempotencyKey (some value) ∧
      after.queue = s.queue.perform (.insert world new) ∧
      ∀ accepted, reply = .ok accepted →
        ∃ created, (s.queue.store.insert world new).1 = .ok (accepted.body, created) := by
  obtain ⟨maxSourceBytes, body, world, new, made, label, rfl⟩ := carries
  obtain rfl : event = .insert world new := label
  refine ⟨world, new, newSubmission_key made, ?_, fun accepted replied => ?_⟩
  · cases step with
    | insert _ _ => rfl
  · simp only [createSubmission, made] at replied
    split at replied
    · cases replied
    · next sub created after inserted =>
      cases replied
      exact ⟨created, by rw [inserted]⟩

section Usable

variable {value : Bytes} {key : String} (usable : idempotencyKey (some value) = some key)
  {s after : System} {event : Event} {reply : Except ApiError (Accepted Submission)}

include usable

/-- **An accepted request is answered with the submission under its key.** -/
theorem Carries.keyed {accepted : Accepted Submission}
    (carries : Carries value ⟨s, event, after⟩ (.ok accepted)) (step : Step s event after) :
    Keyed key accepted.body.id after.queue := by
  obtain ⟨world, new, keyed, queue, replied⟩ := carries.insert step
  obtain ⟨created, inserted⟩ := replied accepted rfl
  rw [usable] at keyed
  rw [queue]
  cases found : s.queue.store.withKey key with
  | some row =>
    have same := (Store.insert_of_withKey keyed found).2 _ inserted
    have body : accepted.body = row.toSubmission := congrArg Prod.fst same
    rw [body]
    exact Keyed.perform ⟨row, Store.withKey_eq_some found⟩ _
  | none =>
    rcases Store.insert_of_fresh keyed found with ⟨-, refused⟩ | ⟨store, done, stored⟩
    · exact absurd inserted (refused _)
    · rw [done] at inserted
      have body : accepted.body = (queuedRow world new).toSubmission :=
        (congrArg Prod.fst (Except.ok.inj inserted)).symm
      rw [body]
      refine ⟨queuedRow world new, ?_, keyed⟩
      show (s.queue.store.insert world new).2.submissions.get world.newId = _
      rw [done, stored.row, if_pos rfl]

/-- **A request that changes the tables is the first one with its key.** -/
theorem Adds.first (adds : Adds value ⟨s, event, after⟩) (step : Step s event after) :
    (¬ ∃ id, Keyed key id s.queue) ∧ (∃ id, Keyed key id after.queue) ∧
      ∃ world new, Store.Inserted s.queue.store world new after.queue.store := by
  obtain ⟨⟨reply, carries⟩, changes⟩ := adds
  obtain ⟨world, new, keyed, queue, -⟩ := carries.insert step
  have store : after.queue.store = (s.queue.store.insert world new).2 := by
    rw [queue]
    rfl
  rw [usable] at keyed
  cases found : s.queue.store.withKey key with
  | some row =>
    exact absurd (store.trans (Store.insert_of_withKey keyed found).1) changes
  | none =>
    rcases Store.insert_of_fresh keyed found with ⟨same, -⟩ | ⟨added, done, stored⟩
    · exact absurd (store.trans same) changes
    · rw [done] at store
      refine ⟨?_, ⟨world.newId, queuedRow world new, ?_, keyed⟩, world, new, store ▸ stored⟩
      · rintro ⟨id, row, there, same⟩
        have absent := List.find?_eq_none.mp found row (Table.get_eq_some.mp there).1
        exact absent (by simpa using same)
      · rw [store, stored.row, if_pos rfl]

end Usable

/-- A key stays with its submission. -/
theorem keyed_stays {key id : String} {s after : System} {event : Event} (sound : Sound s)
    (step : Step s event after) (keyed : Keyed key id s.queue) : Keyed key id after.queue := by
  rcases Step.calls sound step with same | ⟨op, same, -⟩
  · rw [same]
    exact keyed
  · rw [same]
    exact keyed.perform op

theorem deduplicated_of_usable {value : Bytes} (usable : Usable value)
    {steps : List (Transition System Event)} {s : System} (run : system.Run steps s) :
    Deduplicated value steps := by
  obtain ⟨key, usable⟩ := idempotencyKey_of_usable usable
  have taken : ∀ taken ∈ steps, Step taken.before taken.label taken.after := fun taken inside =>
    (sound_invariant.of_transition run inside).2
  refine ⟨?_, ?_, ?_⟩
  · intro one inside two inside' first second carries carries'
    have keyed : Keyed key first.body.id s.queue := run.persists sound_invariant
      (fun _ _ _ sound step => keyed_stays sound step) inside (carries.keyed usable (taken one inside))
    have keyed' : Keyed key second.body.id s.queue := run.persists sound_invariant
      (fun _ _ _ sound step => keyed_stays sound step) inside'
      (carries'.keyed usable (taken two inside'))
    exact keyed.unique keyed'
  · have stable : ∀ (before : System) (event : Event) (after : System), Sound before →
        Step before event after → (∃ id, Keyed key id before.queue) → ∃ id, Keyed key id after.queue :=
      fun _ _ _ sound step ⟨id, keyed⟩ => ⟨id, keyed_stays sound step keyed⟩
    refine run.countP_le_one sound_invariant stable _ fun step inside adds => ?_
    have adds : Adds value step := by simpa using adds
    obtain ⟨new, added, -⟩ := adds.first usable (taken step inside)
    exact ⟨new, added⟩
  · intro step inside adds
    obtain ⟨-, -, world, new, stored⟩ := adds.first usable (taken step inside)
    exact ⟨_, _, stored.rows, stored.sources⟩

/-! ### Values that are ignored -/

/-- The body of a request that is accepted. -/
def sampleBody : CreateSubmission := ⟨"p", "python", "src"⟩

/-- What the request stores. -/
def sampleNew (key : Option String) : NewSubmission := ⟨"local", "p", "v1", "python", "src", 1, key⟩

/-- A store that works, with a given id. -/
def worldWith (id : String) : World := ⟨0, id, fun _ => none⟩

/-- **Two requests with a value from which no key is read store two submissions.** -/
theorem not_deduplicated {value : Bytes} (unusable : ¬ Usable value) :
    ∃ steps s, system.Run steps s ∧ ¬ Deduplicated value steps := by
  have unread := idempotencyKey_eq_none unusable
  have made : newSubmission sampleSettings 100 (some value) sampleBody = .ok (sampleNew none) := by
    rw [← unread]
    rfl
  have run : system.Run [] ⟨sampleSettings, ⟨.empty, []⟩, fun _ => .idle, .idle, .empty,
    [sampleSettings], []⟩ := .start ⟨sampleSettings, rfl⟩
  have run := run.next (Step.insert (worldWith "a") (sampleNew none))
  have run := run.next (Step.insert (worldWith "b") (sampleNew none))
  refine ⟨_, _, run, fun deduplicated => ?_⟩
  have same := deduplicated.same _ (List.mem_cons_of_mem _ List.mem_cons_self) _ List.mem_cons_self
    _ _ ⟨100, sampleBody, _, _, made, rfl, (createSubmission_of_made made rfl).symm⟩
    ⟨100, sampleBody, _, _, made, rfl, (createSubmission_of_made made rfl).symm⟩
  exact absurd same (by decide)

/-- **Requests are deduplicated by the key that is read from their header**: in every run, all
accepted requests with one header value are answered with one submission and only one of them
changes the tables, adding one row and one source — exactly if the value is usable. -/
theorem deduplicated_iff (value : Bytes) :
    (∀ steps s, system.Run steps s → Deduplicated value steps) ↔ Usable value := by
  refine ⟨fun always => ?_, fun usable steps s run => deduplicated_of_usable usable run⟩
  by_contra unusable
  obtain ⟨steps, s, run, separate⟩ := not_deduplicated unusable
  exact separate (always steps s run)

end Server

theorem toStr_replicate (n : Nat) :
    toStr (List.replicate n 0x61) = some (List.replicate n 'a') := by
  have visible : (List.replicate n (0x61 : UInt8)).all visibleAscii = true := by
    rw [List.all_eq_true]
    intro byte inside
    rw [List.eq_of_mem_replicate inside]
    rfl
  rw [toStr, if_pos visible, List.map_replicate]
  rfl

/-- A key of 129 bytes. -/
def longKey : Bytes := List.replicate 129 0x61

set_option maxRecDepth 10000 in
/-- **A long key is ignored.** -/
theorem long_key_ignored : letI := plainHost
    ¬ ∀ value : Bytes, (∃ text, toStr value = some text ∧ trim text ≠ []) →
      ∀ steps s, system.Run steps s → Deduplicated value steps := by
  let host := plainHost
  intro always
  have read : toStr longKey = some (List.replicate 129 'a') := toStr_replicate 129
  have unusable : ¬ Usable longKey := by
    rintro ⟨text, same, -, short⟩
    cases read.symm.trans same
    have kept : trim (List.replicate 129 'a') = List.replicate 129 'a' := by decide
    rw [kept, length_utf8, String.toList_ofList, byteCount_replicate] at short
    exact absurd short (by decide)
  obtain ⟨steps, s, run, separate⟩ := not_deduplicated unusable
  exact separate (always longKey ⟨_, read, by decide⟩ steps s run)

end Codexec.Server
