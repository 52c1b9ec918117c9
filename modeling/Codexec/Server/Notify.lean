/-
**Who watches a submission learns its verdict, where the server tells.**

A worker publishes the row after its last write, so an open stream of a submission that is done has
the DONE state, or a worker is about to publish it (`Told`). Three paths make a row DONE and publish
nothing: a sweep that gives up, `handle_submission` without its problem, and a last read that fails.
A run that takes none of them under an open stream, and in which no receiver loses the DONE state to
states that were read before it, informs every stream.
-/

import Codexec.Server.Streams
import Codexec.Server.Refine

namespace Codexec.Server

open Codexec Codexec.Library Machine

/-! ### What makes a submission done -/

/-- The calls that never do. -/
def Op.quiet : Op → Bool
  | .insert _ _ => true
  | .claimNext _ _ => true
  | .progress _ _ status _ _ _ => status.inFlight
  | .requeueInflight _ => true
  | _ => false

/-- **A submission that a call makes done was there, and not done.** -/
theorem ended_row {state : Queue} {op : Op} {id : String}
    (done : (state.perform op).isDone id = true) : state.isDone id = true ∨
      ∃ row next, state.store.submissions.get id = some row ∧ row.status ≠ .done ∧
        next.status = .done ∧ RowStep op row next := by
  obtain ⟨next, found, status⟩ := isDone_iff.mp done
  cases held : state.store.submissions.get id with
  | none =>
    obtain ⟨_, _, _, _, rfl, _⟩ := Op.row_new held found
    cases status
  | some row =>
    by_cases before : row.status = .done
    · exact Or.inl (isDone_iff.mpr ⟨row, held, before⟩)
    · obtain ⟨next', found', moved⟩ := op.row_cases held
      cases found.symm.trans found'
      exact Or.inr ⟨row, next, rfl, before, status, moved⟩

theorem isDone_of_quiet {state : Queue} {op : Op} {id : String} (quiet : op.quiet = true)
    (done : (state.perform op).isDone id = true) : state.isDone id = true := by
  rcases ended_row done with before | ⟨row, next, _, live, ended, moved⟩
  · exact before
  · cases moved with
    | same => exact absurd ended live
    | claimed _ => cases ended
    | @progressed _ _ status _ _ _ _ _ _ _ =>
      have reported : status = .done := ended
      rw [Op.quiet, reported] at quiet
      cases quiet
    | finished _ _ _ => cases quiet
    | gaveUp _ _ _ _ => cases quiet
    | retried _ _ _ _ => cases ended
    | sweptUp _ => cases quiet
    | sweptBack _ => cases ended
    | restarted _ _ => cases ended

/-- **A worker's write makes no submission done but its own.** -/
theorem ended_own {state : Queue} {op : Op} {token : Token} {id : String}
    (writes : op.token? = some token) (done : (state.perform op).isDone id = true) :
    state.isDone id = true ∨ token.id = id ∧ ∃ row, state.store.submissions.get id = some row ∧
      row.attempt = token.attempt.toNat ∧ row.status ≠ .done := by
  rcases ended_row done with before | ⟨row, next, found, live, ended, moved⟩
  · exact Or.inl before
  · have key : row.id = id := Table.get_key found
    cases moved with
    | same => exact absurd ended live
    | progressed own attempt _ =>
      cases writes
      exact Or.inr ⟨own.symm.trans key, row, found, attempt, live⟩
    | finished own attempt _ =>
      cases writes
      exact Or.inr ⟨own.symm.trans key, row, found, attempt, live⟩
    | gaveUp own attempt _ _ =>
      cases writes
      exact Or.inr ⟨own.symm.trans key, row, found, attempt, live⟩
    | retried _ _ _ _ => cases ended
    | _ => cases writes

/-- **A sweep makes done what is hopeless, if it works.** -/
theorem ended_by_sweep {state : Queue} {world : World} {maxAttempts : UInt32} {id : String}
    (done : (state.perform (.sweep world maxAttempts)).isDone id = true) :
    state.isDone id = true ∨ (∀ n < 3, world.fault n = none) ∧
      ∃ row ∈ state.store.submissions.rows, row.id = id ∧
        hopeless world.now maxAttempts row = true := by
  rcases ended_row done with before | ⟨row, next, found, live, ended, moved⟩
  · exact Or.inl before
  · obtain ⟨stored, key⟩ := Table.get_eq_some.mp found
    rcases state.store.sweep_cases world maxAttempts with ⟨e, failed⟩ | ⟨_, swept, _⟩
    · left
      have same : state.perform (.sweep world maxAttempts) = state := by
        show Queue.mk (state.store.sweep world maxAttempts).2 _ = state
        rw [failed]
        rfl
      rw [same] at done
      exact done
    · right
      refine ⟨Store.sweep_works (congrArg Prod.fst swept), row, stored, key, ?_⟩
      cases moved with
      | same => exact absurd ended live
      | sweptUp lost => exact lost
      | sweptBack _ => cases ended

section Server

variable [Host]

/-! ### Who is about to publish -/

/-- The submission whose DONE state a worker has written and not published. -/
def Phase.owes : Phase → Option String
  | .reporting job true => some job.id
  | .publishing job true _ => some job.id
  | _ => none

/-- A worker is between its write and its publication. -/
def System.Owing (s : System) (id : String) : Prop := ∃ slot, (s.workers slot).owes = some id

/-- A task is between writing the row and publishing it. -/
def System.Writing (s : System) (id : String) : Prop :=
  s.Owing id ∨ ∃ failed, s.sweeper = .swept failed ∧ id ∈ failed

/-- An open stream of the submission does not have the DONE state. -/
def System.Awaited (s : System) (id : String) : Prop :=
  ∃ stream ∈ s.hub.streams.rows, stream.Open ∧ stream.id = id ∧ ¬ stream.Learns

/-- What a worker knows of the row it made DONE. -/
def PhaseTells (state : Queue) : Phase → Prop
  | .reporting job true => state.isDone job.id = true
  | .publishing job true sub => Final job.id sub
  | _ => True

structure Told (s : System) : Prop where
  attached : s.hub.Attached
  workers : ∀ slot, PhaseTells s.queue (s.workers slot)
  streams : ∀ id, s.queue.isDone id = true → s.Awaited id → s.Owing id

/-- No open stream has the DONE state only as the oldest state of a full buffer. -/
def Fits (s : System) (sub : Submission) : Prop :=
  sub.status ≠ .done → ∀ stream ∈ s.hub.streams.rows, stream.Open → stream.id = sub.id →
    stream.Learns → stream.waiting.length < 64 ∨ stream.lagging.Learns

/-- Where the server writes DONE without telling, no open stream waits for it. -/
def tells (s : System) : Event → Prop
  | .sweep world => (∀ n < 3, world.fault n = none) → ∀ row ∈ s.queue.store.submissions.rows,
      hopeless world.now s.settings.maxAttempts row = true → ¬ s.Awaited row.id
  | .abandon slot world => ∀ job row, s.workers slot = .claimed job → world.fault 0 = none →
      s.queue.store.submissions.get job.id = some row → row.attempt = job.attempt.toNat →
      row.status ≠ .done → ¬ s.Awaited job.id
  | .report slot world => ∀ job, s.workers slot = .reporting job true → world.fault 0 ≠ none →
      ¬ s.Awaited job.id
  | .publish slot => ∀ job wrote sub, s.workers slot = .publishing job wrote sub → Fits s sub
  | .beatPublish slot => ∀ run sub, s.workers slot = .judging run → run.beat = .publishing sub →
      Fits s sub
  | _ => True

/-! ### One step -/

theorem PhaseTells.perform {state : Queue} {phase : Phase} (known : PhaseTells state phase)
    (op : Op) : PhaseTells (state.perform op) phase := by
  cases phase with
  | reporting job wrote =>
    cases wrote with
    | true => exact isDone_perform op known
    | false => trivial
  | publishing job wrote sub => cases wrote <;> exact known
  | _ => trivial

/-- Who owed a publication still does, or is the worker that moves on. -/
theorem owing_update {workers : Nat → Phase} {slot : Nat} {current phase : Phase} {id : String}
    (here : workers slot = current) (owing : ∃ other, (workers other).owes = some id) :
    (∃ other, (Function.update workers slot phase other).owes = some id) ∨
      current.owes = some id := by
  obtain ⟨other, owes⟩ := owing
  by_cases same : other = slot
  · right
    rw [← here, ← same, owes]
  · left
    exact ⟨other, by rw [Function.update_of_ne same, owes]⟩

theorem still_owing {workers : Nat → Phase} {slot : Nat} {current phase : Phase} {id : String}
    (here : workers slot = current) (free : current.owes = none)
    (owing : ∃ other, (workers other).owes = some id) :
    ∃ other, (Function.update workers slot phase other).owes = some id := by
  rcases owing_update here owing with still | owes
  · exact still
  · rw [free] at owes
    cases owes

/-- **A publication leaves fewer streams waiting.** -/
theorem awaited_publish {s : System} {sub : Submission} {id : String} (told : Told s)
    (fits : Fits s sub) {after : Stream} (inside : after ∈ (s.hub.publish sub).streams.rows)
    (opened : after.Open) (own : after.id = id) (waits : ¬ after.Learns) :
    s.Awaited id ∧ ¬ Final id sub := by
  obtain ⟨stream, member, ⟨rfl, missed⟩ | ⟨live, key, rfl⟩⟩ :=
    Hub.mem_publish told.attached inside
  · refine ⟨⟨_, member, opened, own, waits⟩, fun final => ?_⟩
    exact missed opened.live (own.trans final.1.symm)
  · have same : stream.id = id := own
    have running : stream.Open := opened
    refine ⟨⟨stream, member, running, same, fun learns => waits ?_⟩, fun final => waits ?_⟩
    · by_cases done : sub.status = .done
      · exact Stream.learns_receive ⟨key.symm, done⟩
      · exact learns.receive (told.attached.fits stream member)
          (fits done stream member running key learns)
    · exact Stream.learns_receive ⟨key.symm, final.2⟩

omit [Host] in
theorem get_done {state : Queue} {id : String} (done : state.isDone id = true) (world : World) :
    (∃ e, state.store.get world id = .error e ∧ world.fault 0 ≠ none) ∨
      ∃ sub, state.store.get world id = .ok (some sub) ∧ Final id sub := by
  obtain ⟨row, found, status⟩ := isDone_iff.mp done
  cases fault : world.fault 0 with
  | some e =>
    left
    refine ⟨e, ?_, by simp⟩
    rw [Store.get, World.statement_of_fault fault]
  | none => exact Or.inr ⟨_, Store.get_of_row found fault, final_of_done found status⟩

/-- **A stream that starts after the submission is done has the DONE state.** -/
theorem learns_opened {s : System} {world : World} {stream : Stream}
    (done : s.queue.isDone stream.id = true)
    (opened : (stream.opened (s.queue.store.get world stream.id)).Open) :
    (stream.opened (s.queue.store.get world stream.id)).Learns := by
  rcases get_done done world with ⟨e, reply, _⟩ | ⟨sub, reply, final⟩
  · rw [reply] at opened
    obtain ⟨_, _, phase⟩ := opened
    cases phase
  · rw [reply]
    exact ⟨sub, final, Or.inr (Or.inl rfl)⟩

/-- **The server tells, as long as it takes none of the silent paths.** -/
theorem told_invariant : (system.guarded tells).Invariant Told where
  start := by
    rintro _ ⟨settings, rfl⟩
    exact ⟨Hub.attached_empty, fun _ => trivial, fun id done => by cases done⟩
  step := by
    rintro s event after told ⟨guard, step⟩
    have workers : ∀ op slot, PhaseTells (s.queue.perform op) (s.workers slot) :=
      fun op slot => (told.workers slot).perform op
    cases step with
    | insert world new =>
      exact ⟨told.attached, workers _, fun id done awaited =>
        told.streams id (isDone_of_quiet rfl done) awaited⟩
    | claim slot world idle =>
      refine ⟨told.attached, all_update (workers _) ?_, fun id done awaited => ?_⟩
      · cases (s.queue.store.claimNext world s.settings.leaseMs).1 with
        | error e => trivial
        | ok job => cases job <;> trivial
      · exact still_owing idle rfl (told.streams id (isDone_of_quiet rfl done) awaited)
    | @abandon slot world job here missing =>
      refine ⟨told.attached, all_update (workers _) trivial, fun id done awaited => ?_⟩
      have before : s.queue.isDone id = true := by
        rcases ended_own rfl done with before | ⟨rfl, row, found, own, live⟩
        · exact before
        · rcases s.queue.store.failAttempt_works world job.id job.attempt 0
            "problem no longer exists" with same | works
          · have done : (s.queue.store.failAttempt world job.id job.attempt 0
                "problem no longer exists").2.submissions.get job.id |>.any
                  fun row => decide (row.status = .done) := done
            rw [same] at done
            exact done
          · exact absurd awaited (guard job row here works found own live)
      exact still_owing here rfl (told.streams id before awaited)
    | begin slot here found =>
      refine ⟨told.attached, all_update told.workers trivial, fun id done awaited => ?_⟩
      exact still_owing here rfl (told.streams id done awaited)
    | call slot here calls answer =>
      refine ⟨told.attached, all_update told.workers trivial, fun id done awaited => ?_⟩
      exact still_owing here rfl (told.streams id done awaited)
    | @heartbeat slot world run event later op here resting received writes =>
      have quiet : op.quiet = true := by
        rw [writes]
        cases event <;> rfl
      refine ⟨told.attached, all_update (workers _) trivial, fun id done awaited => ?_⟩
      exact still_owing here rfl (told.streams id (isDone_of_quiet quiet done) awaited)
    | beatFetch slot world here reading =>
      refine ⟨told.attached, all_update told.workers trivial, fun id done awaited => ?_⟩
      exact still_owing here rfl (told.streams id done awaited)
    | @beatPublish slot run sub here ready =>
      refine ⟨told.attached.publish sub, all_update told.workers trivial, ?_⟩
      rintro id done ⟨stream, inside, opened, own, waits⟩
      have awaited := awaited_publish told (guard run sub here ready) inside opened own waits
      exact still_owing here rfl (told.streams id done awaited.1)
    | returned slot here finished drained resting =>
      refine ⟨told.attached, all_update told.workers trivial, fun id done awaited => ?_⟩
      exact still_owing here rfl (told.streams id done awaited)
    | @store slot world job problem outcome op here writes =>
      have token : op.token? = some job.token := by
        rw [writes]
        exact storeOp_token s.settings world job problem outcome
      refine ⟨told.attached, all_update (workers op) ?_, fun id done awaited => ?_⟩
      · cases ends : s.ends op job.id with
        | false => trivial
        | true =>
          rw [System.ends, Bool.and_eq_true] at ends
          exact ends.2
      · by_cases before : s.queue.isDone id = true
        · exact still_owing here rfl (told.streams id before awaited)
        · obtain ⟨key, _⟩ := (ended_own token done).resolve_left before
          have key : job.id = id := key
          have ends : s.ends op job.id = true := by
            rw [System.ends, key, Bool.eq_false_iff.mpr before]
            exact done
          refine ⟨slot, ?_⟩
          show (Function.update s.workers slot (.reporting job (s.ends op job.id)) slot).owes = _
          rw [Function.update_self, ends]
          exact congrArg some key
    | @report slot world job wrote here =>
      cases wrote with
      | false =>
        refine ⟨told.attached, all_update told.workers ?_, fun id done awaited =>
          still_owing here rfl (told.streams id done awaited)⟩
        unfold System.afterReport
        split <;> trivial
      | true =>
        have known : PhaseTells s.queue (.reporting job true) := here ▸ told.workers slot
        rcases get_done known world with ⟨e, reply, broken⟩ | ⟨sub, reply, final⟩
        · rw [reply]
          refine ⟨told.attached, all_update told.workers trivial, fun id done awaited => ?_⟩
          rcases owing_update here (told.streams id done awaited) with still | owes
          · exact still
          · cases owes
            exact absurd awaited (guard job here broken)
        · rw [reply]
          refine ⟨told.attached, all_update told.workers final, fun id done awaited => ?_⟩
          rcases owing_update here (told.streams id done awaited) with still | owes
          · exact still
          · refine ⟨slot, ?_⟩
            show (Function.update s.workers slot (.publishing job true sub) slot).owes = _
            rw [Function.update_self]
            exact owes
    | @publish slot job wrote sub here =>
      have known : PhaseTells s.queue (.publishing job wrote sub) := here ▸ told.workers slot
      refine ⟨told.attached.publish sub, all_update told.workers trivial, ?_⟩
      rintro id done ⟨stream, inside, opened, own, waits⟩
      obtain ⟨awaited, other⟩ :=
        awaited_publish told (guard job wrote sub here) inside opened own waits
      rcases owing_update here (told.streams id done awaited) with still | owes
      · exact still
      · cases wrote with
        | false => cases owes
        | true =>
          cases owes
          exact absurd known other
    | sweep world resting =>
      refine ⟨told.attached, workers _, fun id done awaited => ?_⟩
      rcases ended_by_sweep done with before | ⟨works, row, stored, rfl, lost⟩
      · exact told.streams id before awaited
      · exact absurd awaited (guard works row stored lost)
    | prune swept =>
      exact ⟨told.attached.prune, told.workers, told.streams⟩
    | subscribe id number fresh =>
      refine ⟨told.attached.subscribe id number fresh, told.workers, ?_⟩
      rintro other done ⟨stream, inside, opened, own, waits⟩
      rcases List.mem_append.mp inside with old | new
      · exact told.streams other done ⟨stream, old, opened, own, waits⟩
      · obtain ⟨_, _, phase⟩ := opened
        rw [List.mem_singleton.mp new] at phase
        cases phase
    | @read number world stream found waits =>
      have same : ∀ other ∈ s.hub.streams.rows, other.number = number → other = stream := by
        rintro other member rfl
        exact Option.some.inj ((Table.get_of_mem member).symm.trans found)
      refine ⟨told.attached.change ?_, told.workers, ?_⟩
      · rintro other member own
        rw [same other member own]
        exact Stream.steady_opened waits _
      · rintro id done ⟨after, inside, opened, own, waits⟩
        obtain ⟨other, member, rfl | ⟨key, rfl⟩⟩ := Hub.mem_change inside
        · exact told.streams id done ⟨_, member, opened, own, waits⟩
        · rw [same other member key] at opened own waits
          have own : stream.id = id := by
            rw [← own]
            exact (Stream.steady_opened ‹_› _).id.symm
          subst own
          exact absurd (learns_opened done opened) waits
    | @poll number stream found =>
      refine ⟨told.attached.change fun other _ _ => Stream.steady_poll _, told.workers, ?_⟩
      rintro id done ⟨after, inside, opened, own, waits⟩
      obtain ⟨other, member, rfl | ⟨_, rfl⟩⟩ := Hub.mem_change inside
      · exact told.streams id done ⟨_, member, opened, own, waits⟩
      · refine told.streams id done ⟨other, member, Stream.open_of_poll opened, ?_, fun learns =>
          waits (learns.poll opened)⟩
        rw [← own]
        exact (Stream.steady_poll _).id.symm
    | hangUp number =>
      refine ⟨told.attached.change fun stream _ _ => Stream.steady_closed, told.workers, ?_⟩
      rintro id done ⟨after, inside, opened, own, waits⟩
      obtain ⟨stream, member, rfl | ⟨_, rfl⟩⟩ := Hub.mem_change inside
      · exact told.streams id done ⟨_, member, opened, own, waits⟩
      · obtain ⟨_, _, phase⟩ := opened
        cases phase
    | restart settings world ready =>
      refine ⟨Hub.attached_empty, fun _ => trivial, ?_⟩
      rintro id done ⟨stream, inside, _⟩
      exact absurd inside List.not_mem_nil

/-- **Every stream learns the verdict, in a run that takes no silent path under an open stream.** -/
theorem streams_learn {steps : List (Transition System Event)} {s : System}
    (run : system.Run steps s) (told : ∀ taken ∈ steps, tells taken.before taken.label) {id : String}
    (done : s.queue.isDone id = true) (settled : ¬ s.Writing id) :
    ∀ stream ∈ s.hub.streams.rows, stream.Open → stream.id = id → stream.Learns := by
  have invariant : Told s := told_invariant.of_run (run.guarded told)
  intro stream inside opened own
  by_contra waits
  exact settled (Or.inl (invariant.streams id done ⟨stream, inside, opened, own, waits⟩))

/-- An open stream that nobody is going to tell. -/
def System.Uninformed (s : System) (id : String) : Prop :=
  s.queue.isDone id = true ∧ ¬ s.Writing id ∧ s.Awaited id

end Server

/-- The language is not configured any more. -/
def oldSubmission : NewSubmission := { sampleSubmission with language := "cobol" }

theorem streams_learn_sample : letI := plainHost
    ∃ s : System, (∃ stream ∈ s.hub.streams.rows, stream.Open ∧ stream.id = "s1") ∧
      ∀ stream ∈ s.hub.streams.rows, stream.Open → stream.id = "s1" → stream.Learns := by
  let host := plainHost
  have run : (system.guarded tells).Run [] (started sampleSettings) := .start ⟨_, rfl⟩
  have run := run.permitted (Step.insert (worldAt 0) oldSubmission) trivial
  have run := run.permitted (Step.subscribe "s1" 0 rfl) trivial
  have run := run.permitted (Step.read 0 (worldAt 5) rfl rfl) trivial
  have run := run.permitted (Step.claim 0 (worldAt 10) rfl) trivial
  have run := run.permitted (Step.begin 0 rfl rfl) trivial
  have run := run.permitted (Step.returned 0 rfl rfl rfl rfl) trivial
  have run := run.permitted (Step.store 0 (worldAt 20) rfl rfl) trivial
  have run := run.permitted (Step.report 0 (worldAt 30) rfl) fun _ _ broken => absurd rfl broken
  have run := run.permitted (Step.publish 0 rfl) fun _ _ _ here live => by
    cases here
    exact absurd rfl live
  obtain ⟨plain, told⟩ := run.of_guarded
  refine ⟨_, ⟨_, List.mem_singleton_self _, ⟨_, _, rfl⟩, rfl⟩, streams_learn plain told rfl ?_⟩
  rintro (⟨slot, owes⟩ | ⟨_, swept, _⟩)
  · rcases slot with _ | slot <;> cases owes
  · cases swept

/-- The only attempt loses its lease under an open stream: nobody tells the client. -/
theorem swept_in_silence :
    ∃ s, (@system plainHost).Reachable s ∧ @System.Uninformed plainHost s "s1" := by
  let host := plainHost
  have run := (run_started sampleSettings).next (Step.insert (worldAt 0) sampleSubmission)
  have run := run.next (Step.claim 0 (worldAt 10) rfl)
  have run := run.next (Step.subscribe "s1" 0 rfl)
  have run := run.next (Step.read 0 (worldAt 20) rfl rfl)
  have run := run.next (Step.sweep (worldAt 60011) rfl)
  have run := run.next (Step.prune rfl)
  refine ⟨_, ⟨_, run⟩, by decide, ?_, _, List.mem_singleton_self _, ⟨_, _, rfl⟩, rfl,
    Stream.not_learns rfl rfl rfl nofun⟩
  rintro (⟨slot, owes⟩ | ⟨_, swept, _⟩)
  · rcases slot with _ | slot <;> cases owes
  · cases swept

/-- The problem was removed while the submission waited: nobody tells the client. -/
theorem abandoned_in_silence :
    ∃ s, (@system plainHost).Reachable s ∧ @System.Uninformed plainHost s "s1" := by
  let host := plainHost
  have run := (run_started sampleSettings).next (Step.insert (worldAt 0) sampleSubmission)
  have run := run.next
    (Step.restart { sampleSettings with problems := ⟨[], List.nodup_nil⟩ } (worldAt 10) rfl)
  have run := run.next (Step.subscribe "s1" 0 rfl)
  have run := run.next (Step.read 0 (worldAt 20) rfl rfl)
  have run := run.next (Step.claim 0 (worldAt 30) rfl)
  have run := run.next (Step.abandon 0 (worldAt 40) rfl rfl)
  refine ⟨_, ⟨_, run⟩, rfl, ?_, _, List.mem_singleton_self _, ⟨_, _, rfl⟩, rfl,
    Stream.not_learns rfl rfl rfl nofun⟩
  rintro (⟨slot, owes⟩ | ⟨_, swept, _⟩)
  · rcases slot with _ | slot <;> cases owes
  · cases swept

end Codexec.Server
