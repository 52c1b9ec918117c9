/-
**All clients are shown one verdict.**

A submission reaches clients in four ways: it is read, listed, streamed, or answered to a request that
repeats an idempotency key. Between the row and a client its state waits in a worker, in receive
buffers and in streams, while the row goes on. A state that says DONE is nevertheless that of the row
for good (`Genuine`), wherever it waits (`Truthful`), so whatever two clients are ever told about the
end of a submission is the same (`verdicts_agree`).
-/

import Codexec.Server.Emission
import Codexec.Server.Ledger

namespace Codexec.Server

open Codexec Codexec.Library Machine

/-! ### States that say DONE -/

/-- What says DONE is the row, and stays it. -/
def Genuine (state : Queue) (sub : Submission) : Prop :=
  sub.status = .done → ∃ row, Settled sub.id row state ∧ sub = row.toSubmission

theorem Genuine.perform {state : Queue} {sub : Submission} (genuine : Genuine state sub) (op : Op) :
    Genuine (state.perform op) sub := by
  intro done
  obtain ⟨row, settled, same⟩ := genuine done
  exact ⟨row, settled.perform op, same⟩

theorem genuine_of_row {state : Queue} {id : String} {row : Row}
    (found : state.store.submissions.get id = some row) : Genuine state row.toSubmission := by
  intro done
  have key : row.id = id := Table.get_key found
  refine ⟨row, ⟨?_, done⟩, rfl⟩
  rw [show row.toSubmission.id = id from key]
  exact found

theorem genuine_of_get {state : Queue} {world : World} {id : String} {sub : Submission}
    (got : state.store.get world id = .ok (some sub)) : Genuine state sub := by
  obtain ⟨row, found, rfl⟩ := Store.row_of_get got
  exact genuine_of_row found

/-- **A genuine DONE state is what is read.** -/
theorem Genuine.get {state : Queue} {sub : Submission} (genuine : Genuine state sub)
    (done : sub.status = .done) {world : World} (works : world.fault 0 = none) :
    getSubmission state.store world sub.id = .ok sub := by
  obtain ⟨row, settled, same⟩ := genuine done
  rw [getSubmission, Store.get_of_row settled.1 works, ← same]
  rfl

/-- Two genuine DONE states of a submission are one. -/
theorem Genuine.unique {state : Queue} {sub sub' : Submission} (genuine : Genuine state sub)
    (genuine' : Genuine state sub') (same : sub'.id = sub.id) (done : sub.status = .done)
    (done' : sub'.status = .done) : sub' = sub := by
  obtain ⟨row, settled, own⟩ := genuine done
  obtain ⟨row', settled', own'⟩ := genuine' done'
  have stored := settled'.1
  rw [same, settled.1] at stored
  cases stored
  exact own'.trans own.symm

/-! ### Where states wait -/

/-- A state that a stream has emitted or may emit. -/
def Stream.Carries (self : Stream) (sub : Submission) : Prop :=
  sub ∈ self.emitted ∨ self.phase.first = some sub ∨ sub ∈ self.waiting

namespace Stream

variable {self : Stream} {sub : Submission}

theorem carries_receive {new : Submission} (carries : (self.receive new).Carries sub) :
    self.Carries sub ∨ sub = new := by
  rcases carries with emitted | first | waiting
  · exact .inl (.inl emitted)
  · exact .inl (.inr (.inl first))
  · have inside := List.mem_of_mem_drop waiting
    rw [List.mem_append, List.mem_singleton] at inside
    exact inside.imp_left fun waits => .inr (.inr waits)

theorem carries_opened {reply : Except StoreError (Option Submission)}
    (carries : (self.opened reply).Carries sub) : self.Carries sub ∨ reply = .ok (some sub) := by
  unfold Stream.opened at carries
  split at carries
  · rcases carries with emitted | first | waiting
    · exact .inl (.inl emitted)
    · cases first
      exact .inr rfl
    · exact .inl (.inr (.inr waiting))
  · rcases carries with emitted | first | waiting
    · exact .inl (.inl emitted)
    · cases first
    · exact .inl (.inr (.inr waiting))

theorem carries_emit {new : Submission} (carries : (self.emit new).Carries sub) :
    sub = new ∨ sub ∈ self.emitted ∨ sub ∈ self.waiting := by
  rcases carries with emitted | first | waiting
  · rw [Stream.emit, List.mem_append, List.mem_singleton] at emitted
    exact emitted.elim (fun old => .inr (.inl old)) .inl
  · cases first
  · exact .inr (.inr waiting)

theorem carries_closed (carries : ({ self with phase := .closed } : Stream).Carries sub) :
    self.Carries sub := by
  rcases carries with emitted | first | waiting
  · exact .inl emitted
  · cases first
  · exact .inr (.inr waiting)

theorem carries_poll {connected : Bool} (carries : (self.poll connected).Carries sub) :
    self.Carries sub := by
  unfold Stream.poll at carries
  split at carries
  · exact carries_closed carries
  · rename_i current phase
    rcases carries_emit carries with rfl | emitted | waiting
    · exact .inr (.inl (by rw [phase]; rfl))
    · exact .inl emitted
    · exact .inr (.inr waiting)
  · split at carries
    · rename_i head rest waits
      rcases carries_emit carries with rfl | emitted | waiting
      · exact .inr (.inr (by rw [waits]; exact List.mem_cons_self))
      · exact .inl emitted
      · exact .inr (.inr (by rw [waits]; exact List.mem_cons_of_mem _ waiting))
    · split at carries
      · exact carries
      · exact carries_closed carries
  · exact carries

end Stream

/-- **A stream carries what it carried**, what is published, and the row it reads. -/
theorem Goes.carries {act : Act} {stream next : Stream} (goes : Goes act stream next)
    {sub : Submission} (carries : next.Carries sub) : stream.Carries sub ∨ act = .publish sub ∨
      act = .opened stream.number (.ok (some sub)) := by
  cases goes with
  | same _ => exact .inl carries
  | received _ _ =>
    refine (Stream.carries_receive carries).imp_right fun same => ?_
    rw [same]
    exact .inl rfl
  | opened _ =>
    refine (Stream.carries_opened carries).imp_right fun same => ?_
    rw [same]
    exact .inr rfl
  | polled _ => exact .inl (Stream.carries_poll carries)
  | hungUp => exact .inl (Stream.carries_closed carries)

section Server

variable [Host]

/-- Every state on its way to a client is genuine. -/
structure Truthful (s : System) : Prop where
  pending : ∀ slot sub, (s.workers slot).pending = some sub → Genuine s.queue sub
  streams : ∀ number stream sub, s.hub.streams.get number = some stream → stream.Carries sub →
    Genuine s.queue sub

theorem Step.genuine {s after : System} {event : Event} (step : Step s event after)
    {sub : Submission} (genuine : Genuine s.queue sub) : Genuine after.queue sub := by
  rcases Step.performs step with same | ⟨op, _, same⟩
  · rw [same]
    exact genuine
  · rw [same]
    exact genuine.perform op

/-- What an action brings to the hub is genuine. -/
theorem Truthful.touches {s : System} (truthful : Truthful s) {event : Event} {act : Act}
    (touches : Touches s event act) {sub : Submission} (brings : act = .publish sub ∨
      ∃ number, act = .opened number (.ok (some sub))) : Genuine s.queue sub := by
  cases touches with
  | publish acts ready =>
    rcases brings with same | ⟨number, same⟩
    · cases same
      exact truthful.pending _ _ ready
    · cases same
  | @read number world stream found =>
    rcases brings with same | ⟨number, same⟩
    · cases same
    · exact genuine_of_get (Act.opened.inj same).2
  | _ => rcases brings with same | ⟨number, same⟩ <;> cases same

theorem truthful_of_run {steps : List (Transition System Event)} {s : System}
    (run : system.Run steps s) : Truthful s := by
  induction run with
  | start initial =>
    obtain ⟨settings, rfl⟩ := initial
    refine ⟨fun slot sub has => ?_, fun number stream sub found carries => ?_⟩
    · cases has
    · cases found
  | @next steps s after event earlier step truthful =>
    refine ⟨fun slot sub has => ?_, fun number stream sub found carries => ?_⟩
    · apply Step.genuine step
      rcases Step.pending step has with ⟨before, _⟩ | ⟨job, world, _, _, got⟩
      · exact truthful.pending slot sub before
      · exact genuine_of_get got
    · apply Step.genuine step
      rcases Step.acts step with same | empty | ⟨act, touches, acted⟩
      · rw [same] at found
        exact truthful.streams number stream sub found carries
      · rw [empty] at found
        cases found
      · cases held : s.hub.streams.get number with
        | none =>
          obtain ⟨id, _, rfl⟩ := acted.fresh held found
          rcases carries with emitted | first | waiting
          · cases emitted
          · cases first
          · cases waiting
        | some old =>
          obtain ⟨acts, heard⟩ := hub_of_server earlier
          obtain ⟨next, found', goes⟩ := acted.goes (attached_invariant.of_run heard) held
          cases found.symm.trans found'
          rcases goes.carries carries with before | brought | brought
          · exact truthful.streams number old sub held before
          · exact truthful.touches touches (.inl brought)
          · exact truthful.touches touches (.inr ⟨_, brought⟩)

/-! ### What clients are shown -/

omit [Host] in
/-- An insertion answers with a row of the store, or with the new one. -/
theorem insert_reply {store : Store} {world : World} {new : NewSubmission} {sub : Submission}
    {fresh : Bool} (replied : (store.insert world new).1 = .ok (sub, fresh)) :
    sub = (queuedRow world new).toSubmission ∨
      ∃ row ∈ store.submissions.rows, sub = row.toSubmission := by
  rcases store.insert_cases world new with ⟨_, none⟩ | ⟨after, done, _⟩
  · cases fresh with
    | true => exact absurd replied (none sub)
    | false =>
      unfold Store.insert at replied
      rcases store.transaction_cases _ with ⟨e, failed⟩ | ⟨value, after, ran, done⟩
      · rw [failed] at replied
        cases replied
      · rw [done] at replied
        cases replied
        obtain ⟨_, _, ran⟩ := Store.of_bind_eq_ok ran
        cases existing : new.idempotencyKey.bind store.withKey with
        | some row =>
          rw [existing] at ran
          cases ran
          obtain ⟨key, _, found⟩ := Option.bind_eq_some_iff.mp existing
          exact .inr ⟨row, List.mem_of_find?_eq_some found, rfl⟩
        | none =>
          rw [existing] at ran
          obtain ⟨_, _, ran⟩ := Store.of_bind_eq_ok ran
          obtain ⟨inserted, _, ran⟩ := Store.of_bind_eq_ok ran
          obtain ⟨_, _, ran⟩ := Store.of_bind_eq_ok ran
          obtain ⟨sourced, _, ran⟩ := Store.of_bind_eq_ok ran
          obtain ⟨_, _, ran⟩ := Store.of_bind_eq_ok ran
          cases back : sourced.submissions.get world.newId with
          | none =>
            rw [back] at ran
            cases ran
          | some row =>
            rw [back] at ran
            obtain ⟨_, _, ran⟩ := Store.of_bind_eq_ok ran
            cases ran
  · rw [done] at replied
    cases replied
    exact .inl rfl

/-- A state of a submission that a client is shown, in a state of the server. -/
inductive Shown (s : System) : Submission → Prop
  | read {world : World} {id : String} {sub : Submission}
      (got : getSubmission s.queue.store world id = .ok sub) : Shown s sub
  | streamed {number : Nat} {stream : Stream} {sub : Submission}
      (found : s.hub.streams.get number = some stream) (emitted : sub ∈ stream.emitted) :
      Shown s sub
  /-- The reply of `create_submission`, of a repeated request perhaps. -/
  | answered {world : World} {maxSourceBytes : Nat} {header : Option Bytes} {body : CreateSubmission}
      {accepted : Accepted Submission} (made : (createSubmission s.settings maxSourceBytes header body
        world s.queue.store).1 = .ok accepted) : Shown s accepted.body

/-- Some client was shown this state in a run. -/
def ShownIn (steps : List (Transition System Event)) (s : System) (sub : Submission) : Prop :=
  Shown s sub ∨ ∃ taken ∈ steps, Shown taken.before sub

omit [Host] in
theorem orNotFound_ok {α : Type} {what : String} {found : Option α} {value : α}
    (ok : orNotFound what found = .ok value) : found = some value := by
  cases found with
  | none => cases ok
  | some other =>
    cases ok
    rfl

omit [Host] in
theorem orInternal_ok {α : Type} {reply : Except StoreError α} {value : α}
    (ok : orInternal reply = .ok value) : reply = .ok value := by
  cases reply with
  | error e => cases ok
  | ok other =>
    cases ok
    rfl

theorem Shown.genuine {s : System} (truthful : Truthful s) {sub : Submission}
    (shown : Shown s sub) : Genuine s.queue sub := by
  cases shown with
  | read got =>
    obtain ⟨found, replied, ok⟩ := Store.of_bind_eq_ok got
    rw [orNotFound_ok ok] at replied
    exact genuine_of_get (orInternal_ok replied)
  | streamed found emitted => exact truthful.streams _ _ _ found (.inl emitted)
  | @answered world maxSourceBytes header body accepted made =>
    unfold createSubmission at made
    split at made
    · cases made
    · next new _ =>
      split at made
      · cases made
      · next sub fresh after inserted =>
        cases made
        rcases insert_reply (congrArg Prod.fst inserted) with rfl | ⟨row, inside, rfl⟩
        · exact fun done => by cases done
        · exact genuine_of_row (Table.get_of_mem inside)

/-- **A DONE state that was shown once is still true.** -/
theorem ShownIn.genuine {steps : List (Transition System Event)} {s : System}
    (run : system.Run steps s) {sub : Submission} (shown : ShownIn steps s sub) :
    Genuine s.queue sub := by
  rcases shown with now | ⟨taken, member, before⟩
  · exact now.genuine (truthful_of_run run)
  · obtain ⟨earlier, reached, _⟩ := run.reaches member
    exact run.stays (fun s => Genuine s.queue sub)
      (fun _ _ _ step genuine => Step.genuine step genuine) member
      (before.genuine (truthful_of_run reached))

/-- **All clients are shown one verdict.** Whatever DONE states of a submission clients are shown in a
run, by reading, streaming or repeating a request, before and after restarts, they are one state; and
from then on reading gives that state, and a list shows it without its details. -/
theorem verdicts_agree {steps : List (Transition System Event)} {s : System}
    (run : system.Run steps s) {sub : Submission} (shown : ShownIn steps s sub)
    (done : sub.status = .done) :
    (∀ sub', ShownIn steps s sub' → sub'.id = sub.id → sub'.status = .done → sub' = sub) ∧
      (∀ world : World, world.fault 0 = none →
        getSubmission s.queue.store world sub.id = .ok sub) ∧
      ∀ world q subs, listSubmissions s.queue.store world q = .ok subs →
        ∀ listed ∈ subs, listed.id = sub.id → listed = sub.brief := by
  have genuine := shown.genuine run
  refine ⟨fun sub' shown' same done' => genuine.unique (shown'.genuine run) same done done',
    fun world works => genuine.get done works, fun world q subs replied listed inside same => ?_⟩
  obtain ⟨row, settled, own⟩ := genuine done
  have works := works_of_list (orInternal_ok replied)
  obtain ⟨subs', replied', lists, -⟩ := listing_newest s.queue.store works q
  rw [replied] at replied'
  cases replied'
  obtain ⟨row', found, _, rfl⟩ := lists.shown listed inside
  rw [same, settled.1] at found
  cases found
  rw [own]

end Server

/-! ### A verdict before and after a restart -/

/-- A submission whose problem does not exist any more. -/
def orphanSubmission : NewSubmission := { sampleSubmission with problem := "gone" }

theorem verdicts_agree_sample : letI := plainHost
    ∃ s sub, system.Reachable s ∧ sub.verdict = some .internalError ∧
      getSubmission s.queue.store (worldAt 9) sub.id = .ok sub := by
  let host := plainHost
  have run := (run_started sampleSettings).next (Step.insert (worldAt 0) orphanSubmission)
  have run := run.next (Step.claim 0 (worldAt 1) rfl)
  have run := run.next (Step.abandon 0 (worldAt 2) rfl rfl)
  have run := run.next (Step.restart sampleSettings (worldAt 3) rfl)
  have shown := fun sub got => verdicts_agree run
    (.inr ⟨_, List.mem_cons_self, @Shown.read host _ (worldAt 2) "s1" sub got⟩)
  exact ⟨_, _, ⟨_, run⟩, rfl, (shown _ rfl rfl).2.1 (worldAt 9) rfl⟩

end Codexec.Server
