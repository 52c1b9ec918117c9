/-
**One worker empties the queue.**

From every reachable state in which a worker is idle, this worker alone can bring every submission
that waits to DONE, whatever the sandbox answers, and the verdicts are those of `judge`
(`worker_drains_queue`).

The oldest submission is claimed, judged call by call (`judges`), its progress is recorded
(`heartbeats`), and the outcome is stored (`stores`); together that is one attempt (`attempts_job`).
When the sandbox has failed and attempts are left, the submission is back in the queue, where it is
again the oldest, and fewer attempts are left (`settles_oldest`). Otherwise fewer submissions wait.
-/

import Codexec.Server.Working
import Codexec.Server.Ledger

namespace Codexec.Server

open Codexec Codexec.Library Program

/-- The place in the queue and what was submitted are the same. -/
structure Resembles (origin row : Row) : Prop where
  rank : rank row = rank origin
  problem : row.problem = origin.problem
  language : row.language = origin.language

theorem Resembles.step {origin row next : Row} {op : Op} (resembles : Resembles origin row)
    (step : RowStep op row next) : Resembles origin next := by
  obtain ⟨problem, language⟩ := step.submitted
  refine ⟨?_, problem.trans resembles.problem, language.trans resembles.language⟩
  cases step <;> exact resembles.rank

/-- What the verdict column says after an outcome, when the submission is DONE. -/
def verdictOf : Except JudgeError JudgeResult → String
  | .ok result => result.verdict.code
  | .error _ => "IE"

section Server

variable [Host]

/-- The verdict of a job when the sandbox answers so. -/
def verdictOn (settings : Settings) (sandbox : Environment Call.Answer) (job : Job) : String :=
  match settings.problems.get job.problem with
  | none => "IE"
  | some problem => verdictOf (settings.judge.result (requestFor job problem) true sandbox)

/-! ### One submission and the rest -/

/-- No other submission has changed. -/
structure Beside (id : String) (s after : System) : Prop where
  settings : after.settings = s.settings
  sources : after.queue.store.sources = s.queue.store.sources
  others : ∀ other, other ≠ id →
    after.queue.store.submissions.get other = s.queue.store.submissions.get other

namespace Beside

variable {id : String} {s middle after : System}

theorem trans (one : Beside id s middle) (two : Beside id middle after) : Beside id s after :=
  ⟨two.settings.trans one.settings, two.sources.trans one.sources,
    fun other different => (two.others other different).trans (one.others other different)⟩

theorem of_same (settings : after.settings = s.settings) (queue : after.queue = s.queue) :
    Beside id s after :=
  ⟨settings, by rw [queue], fun other _ => by rw [queue]⟩

/-- A write to one row. -/
theorem of_set {change : Change} (settings : after.settings = s.settings)
    (store : after.queue.store = s.queue.store.set id change) : Beside id s after := by
  refine ⟨settings, by rw [store, Store.sources_set], fun other different => ?_⟩
  rw [store, Store.get_set, if_neg (Ne.symm different)]

end Beside

/-- The row of a job while its worker has it. -/
def Held (job : Job) (origin : Row) (s : System) : Prop :=
  ∃ row, s.queue.store.submissions.get job.id = some row ∧ row.attempt = job.attempt.toNat ∧
    row.status.inFlight = true ∧ Resembles origin row

/-- The steps of one worker. -/
def Alone (slot : Nat) : System → System → Prop :=
  system.Leads fun event => event.worker = some slot

/-! ### Judging -/

section Judging

variable {s : System} {slot : Nat}

theorem setWorker_same {phase : Phase} (here : s.workers slot = phase) :
    s.setWorker slot phase = s := by
  rw [← here, System.setWorker, Function.update_eq_self]

theorem setWorker_twice (one two : Phase) :
    (s.setWorker slot one).setWorker slot two = s.setWorker slot two := by
  simp only [System.setWorker, Function.update_idem]

/-- **A run is judged to its end**, call by call, as the sandbox answers. -/
theorem judges (sandbox : Environment Call.Answer) {run : Judging}
    {left : JudgeM (Except JudgeError JudgeResult)} (here : s.workers slot = .judging run)
    (rest : run.rest = left) (history : List Call) :
    ∃ last : Judging, Alone slot s (s.setWorker slot (.judging last)) ∧ last.job = run.job ∧
      last.problem = run.problem ∧ last.beat = run.beat ∧
      last.rest = .pure (Program.run sandbox history left).1 := by
  induction left generalizing s run history with
  | pure outcome =>
    refine ⟨run, ?_, rfl, rfl, rfl, rest⟩
    rw [setWorker_same here]
    exact .refl s
  | call request next ih =>
    let answer := sandbox history request
    have step := Step.call slot here rest answer
    obtain ⟨last, leads, job, problem, beat, done⟩ :=
      ih answer (System.workers_setWorker s slot (.judging (run.answered rest answer))) rfl
        (history ++ [request])
    rw [setWorker_twice] at leads
    exact ⟨last, .next rfl step leads, job, problem, beat, done⟩

end Judging

/-! ### Writing -/

section Writes

variable {s : System} {slot : Nat} {job : Job} {origin : Row}

/-- **An event is recorded** and published, and the heartbeat waits for the next one. -/
theorem heartbeat_alone {run : Judging} {event : Progress} {later : List Progress}
    (here : s.workers slot = .judging run) (resting : run.beat = .idle)
    (received : run.channel = event :: later) (held : Held run.job origin s) :
    ∃ after, Alone slot s after ∧
      after.workers slot = .judging { run with channel := later, beat := .idle } ∧
      Beside run.job.id s after ∧ Held run.job origin after := by
  obtain ⟨row, found, own, flying, resembles⟩ := held
  let world := worldAt 0
  let op : Op := .progress world run.job.token (Judging.recorded event).1
    (Judging.recorded event).2.1 (Judging.recorded event).2.2 s.settings.leaseMs
  let change := progressed world (Judging.recorded event).1 (Judging.recorded event).2.1
    (Judging.recorded event).2.2 s.settings.leaseMs
  have writes : s.queue.store.progress world run.job.id run.job.attempt (Judging.recorded event).1
      (Judging.recorded event).2.1 (Judging.recorded event).2.2 s.settings.leaseMs =
        (.ok (1 == 1), s.queue.store.set run.job.id change) :=
    Store.execute_owned_of_row rfl found own Status.inFlight flying change _
  have applied : op.applied s.queue.store = true := by
    simp only [op, Op.applied]
    rw [show s.queue.store.progress world run.job.token.id run.job.token.attempt _ _ _ _ = _
      from writes]
    rfl
  have store : (s.perform op).queue.store = s.queue.store.set run.job.id change :=
    congrArg Prod.snd writes
  have now : (s.perform op).queue.store.submissions.get run.job.id = some (change.set row) := by
    rw [store, Store.get_set, if_pos rfl, found]
    rfl
  -- Its row is there, so what was recorded is fetched and published.
  have records := Step.heartbeat slot world here resting received (show op = _ from rfl)
  rw [if_pos applied] at records
  let recorded : Judging := { run with channel := later, beat := .fetching }
  have one : ((s.perform op).setWorker slot (.judging recorded)).workers slot = .judging recorded :=
    System.workers_setWorker _ _ _
  have fetches := Step.beatFetch slot world one rfl
  rw [setWorker_twice] at fetches
  have reply : ((s.perform op).setWorker slot (.judging recorded)).queue.store.get world
      recorded.job.id = .ok (some (change.set row).toSubmission) := Store.get_of_row now rfl
  rw [reply] at fetches
  let fetched : Judging := { recorded with beat := .publishing (change.set row).toSubmission }
  have two : ((s.perform op).setWorker slot (.judging fetched)).workers slot = .judging fetched :=
    System.workers_setWorker _ _ _
  have publishes := Step.beatPublish slot two rfl
  refine ⟨_, .next rfl records (.next rfl fetches (.next rfl publishes (.refl _))),
    System.workers_setWorker _ _ _, .of_set rfl store, change.set row, now, own, ?_, ?_⟩
  · cases event <;> rfl
  · have moves : RowStep op row (change.set row) :=
      .progressed (Table.get_key found) own flying
    exact resembles.step moves

/-- **All events are recorded**, one after the other. -/
theorem heartbeats {run : Judging} {events : List Progress} (here : s.workers slot = .judging run)
    (resting : run.beat = .idle) (received : run.channel = events)
    (held : Held run.job origin s) :
    ∃ after, Alone slot s after ∧
      after.workers slot = .judging { run with channel := [], beat := .idle } ∧
      Beside run.job.id s after ∧ Held run.job origin after := by
  induction events generalizing s run with
  | nil =>
    have same : ({ run with channel := [], beat := .idle } : Judging) = run := by
      rw [← received, ← resting]
    rw [same]
    exact ⟨s, .refl s, here, .of_same rfl rfl, held⟩
  | cons event later ih =>
    obtain ⟨middle, leads, there, beside, held⟩ := heartbeat_alone here resting received held
    obtain ⟨after, leads', there', beside', held'⟩ := ih there rfl rfl held
    exact ⟨after, leads.trans leads', there', beside.trans beside', held'⟩

/-- The row of a submission after an attempt: DONE, or back in the queue. -/
def Attempted (settings : Settings) (job : Job) (origin : Row) (verdict : String) (s : System) :
    Prop :=
  ∃ row, s.queue.store.submissions.get job.id = some row ∧ Resembles origin row ∧
    (row.status = .done ∧ row.verdict = some verdict ∨
      row.status = .queued ∧ row.attempt = job.attempt.toNat ∧ job.attempt < settings.maxAttempts)

/-- A write to the row of a job that its worker has. -/
theorem attempted_of_set {op : Op} (change : Change) {verdict : String} {row : Row}
    (found : s.queue.store.submissions.get job.id = some row) (resembles : Resembles origin row)
    (store : op.after s.queue.store = s.queue.store.set job.id change)
    (moves : RowStep op row (change.set row))
    (ends : (change.set row).status = .done ∧ (change.set row).verdict = some verdict ∨
      (change.set row).status = .queued ∧ (change.set row).attempt = job.attempt.toNat ∧
        job.attempt < s.settings.maxAttempts) :
    Beside job.id s (s.perform op) ∧ Attempted s.settings job origin verdict (s.perform op) := by
  have now : (s.perform op).queue.store.submissions.get job.id = some (change.set row) := by
    show (op.after s.queue.store).submissions.get job.id = _
    rw [store, Store.get_set, if_pos rfl, found]
    rfl
  exact ⟨.of_set rfl store, change.set row, now, resembles.step moves, ends⟩

/-- An attempt that is given up: for good, or up to the limit. -/
theorem failAttempt_held {maxAttempts : UInt32} (error : String)
    (limit : maxAttempts = 0 ∨ maxAttempts = s.settings.maxAttempts) (held : Held job origin s) :
    Beside job.id s (s.perform (.failAttempt (worldAt 0) job.token maxAttempts error)) ∧
      Attempted s.settings job origin "IE"
        (s.perform (.failAttempt (worldAt 0) job.token maxAttempts error)) := by
  obtain ⟨row, found, own, flying, resembles⟩ := held
  have live : row.status ≠ .done := live_of_inFlight flying
  have key : row.id = job.id := Table.get_key found
  have allowed : (row.status != .done) = true := bne_iff_ne.mpr live
  by_cases spent : maxAttempts ≤ job.attempt
  · refine attempted_of_set (givenUp (worldAt 0) fun _ => error) found resembles ?_
      (.gaveUp key own live spent) (Or.inl ⟨rfl, rfl⟩)
    show (s.queue.store.failAttempt (worldAt 0) job.id job.attempt maxAttempts error).2 = _
    rw [Store.failAttempt, if_pos spent, Store.execute_owned_of_row rfl found own _ allowed]
  · refine attempted_of_set (requeued fun _ => some error) found resembles ?_
      (.retried key own live spent) (Or.inr ⟨rfl, own, ?_⟩)
    · show (s.queue.store.failAttempt (worldAt 0) job.id job.attempt maxAttempts error).2 = _
      rw [Store.failAttempt, if_neg spent, Store.execute_owned_of_row rfl found own _ allowed]
    · rcases limit with rfl | rfl
      · exact absurd (UInt32.zero_le) spent
      · exact UInt32.not_le.mp spent

/-- **The outcome is stored.** -/
theorem storeOp_held (problem : Problem) (outcome : Except JudgeError JudgeResult)
    (held : Held job origin s) :
    Beside job.id s (s.perform (storeOp s.settings (worldAt 0) job problem outcome)) ∧
      Attempted s.settings job origin (verdictOf outcome)
        (s.perform (storeOp s.settings (worldAt 0) job problem outcome)) := by
  cases outcome with
  | ok result =>
    obtain ⟨row, found, own, flying, resembles⟩ := held
    have live : row.status ≠ .done := live_of_inFlight flying
    have allowed : (row.status != .done) = true := bne_iff_ne.mpr live
    refine attempted_of_set (finished (worldAt 0) problem.version judgeVersion result) found
      resembles ?_ (.finished (Table.get_key found) own live) (Or.inl ⟨rfl, rfl⟩)
    show (s.queue.store.finish (worldAt 0) job.id job.attempt problem.version judgeVersion
      result).2 = _
    rw [Store.finish, Store.execute_owned_of_row rfl found own _ allowed]
  | error e =>
    cases e with
    | unknownLanguage language => exact failAttempt_held _ (Or.inl rfl) held
    | sandbox e => exact failAttempt_held _ (Or.inr rfl) held

/-- The worker reads the row and publishes it. -/
theorem publishes_row {wrote : Bool} {row : Row} (here : s.workers slot = .reporting job wrote)
    (found : s.queue.store.submissions.get job.id = some row) :
    ∃ after, Alone slot s after ∧ after.workers slot = .idle ∧ after.settings = s.settings ∧
      after.queue = s.queue := by
  have reading := Step.report slot (worldAt 0) here
  have reply : s.queue.store.get (worldAt 0) job.id = .ok (some row.toSubmission) :=
    Store.get_of_row found rfl
  rw [reply] at reading
  have publishes := Step.publish slot (System.workers_setWorker s slot
    (.publishing job wrote row.toSubmission))
  exact ⟨_, .next rfl reading (.next rfl publishes (.refl _)), System.workers_setWorker _ _ _,
    rfl, rfl⟩

/-- **A run that has been judged is recorded and stored.** -/
theorem stores {run : Judging} {outcome : Except JudgeError JudgeResult}
    (here : s.workers slot = .judging run) (resting : run.beat = .idle)
    (done : run.rest = .pure outcome) (held : Held run.job origin s) :
    ∃ after, Alone slot s after ∧ after.workers slot = .idle ∧ Beside run.job.id s after ∧
      Attempted s.settings run.job origin (verdictOf outcome) after := by
  obtain ⟨told, telling, there, beside, held⟩ := heartbeats here resting rfl held
  have returns := Step.returned slot there done rfl rfl
  let silent : Judging := { run with channel := [], beat := .idle }
  let returned : System := { told with judged := judgements silent ++ told.judged }.setWorker slot
    (.storing run.job run.problem outcome)
  have held : Held run.job origin returned := held
  obtain ⟨beside', row, now, ends⟩ := storeOp_held run.problem outcome held
  let op := storeOp returned.settings (worldAt 0) run.job run.problem outcome
  have storing : returned.workers slot = .storing run.job run.problem outcome :=
    System.workers_setWorker _ _ _
  have writes := Step.store slot (worldAt 0) storing (show op = _ from rfl)
  let written := (returned.perform op).setWorker slot
    (.reporting run.job (returned.ends op run.job.id))
  have reporting : written.workers slot = .reporting run.job (returned.ends op run.job.id) :=
    System.workers_setWorker _ _ _
  obtain ⟨after, publishing, idle, settings, queue⟩ := publishes_row reporting now
  have last : Beside run.job.id told after :=
    ⟨settings.trans beside'.settings, by rw [queue]; exact beside'.sources,
      by rw [queue]; exact beside'.others⟩
  have kept : returned.settings = s.settings := beside.settings
  rw [kept] at ends
  refine ⟨after, telling.trans (.next rfl returns (.next rfl writes publishing)), idle,
    beside.trans last, row, ?_, ends⟩
  rw [queue]
  exact now

end Writes

/-! ### One attempt -/

section Attempts

variable {s : System} {slot : Nat} {job : Job} {origin : Row}

/-- **A claimed job is judged and stored.** -/
theorem attempts_job (sandbox : Environment Call.Answer) (here : s.workers slot = .claimed job)
    (held : Held job origin s) :
    ∃ after, Alone slot s after ∧ after.workers slot = .idle ∧ Beside job.id s after ∧
      Attempted s.settings job origin (verdictOn s.settings sandbox job) after := by
  unfold verdictOn
  cases found : s.settings.problems.get job.problem with
  | none =>
    obtain ⟨beside, attempted⟩ := failAttempt_held "problem no longer exists" (Or.inl rfl) held
    exact ⟨_, .next rfl (.abandon slot (worldAt 0) here found) (.refl _),
      System.workers_setWorker _ _ _, beside.trans (.of_same rfl rfl), attempted⟩
  | some problem =>
    have begins := Step.begin slot here found
    let first := Judging.begin s.settings.judge job problem
    obtain ⟨last, judging, same, -, resting, done⟩ := judges sandbox
      (System.workers_setWorker s slot (.judging first)) rfl []
    rw [setWorker_twice] at judging
    have same : last.job = job := same
    have held : Held last.job origin (s.setWorker slot (.judging last)) := by
      rw [same]
      exact held
    obtain ⟨after, storing, idle, beside, attempted⟩ :=
      stores (System.workers_setWorker s slot (.judging last)) resting done held
    rw [same] at beside attempted
    have begun : Beside job.id s (s.setWorker slot (.judging last)) := .of_same rfl rfl
    exact ⟨after, .next rfl begins (judging.trans storing), idle, begun.trans beside, attempted⟩

/-- **The oldest submission is claimed** by an idle worker. -/
theorem claims_oldest (reachable : system.Reachable s) (idle : s.workers slot = .idle)
    (oldest : s.queue.store.oldest = some origin) (room : origin.attempt + 1 < 2 ^ 32) :
    ∃ source after, s.queue.store.sources.get origin.id = some source ∧
      Step s (.claim slot (worldAt 0)) after ∧ Beside origin.id s after ∧
      ∃ job : Job, after.workers slot = .claimed job ∧ job.id = origin.id ∧
        job.attempt.toNat = origin.attempt + 1 ∧ Held job origin after ∧
        ∀ sandbox, verdictOn s.settings sandbox job =
          verdictOn s.settings sandbox (jobOf origin source.source) := by
  have sourced : Sourced s.queue.store := (sourced_invariant.guarded byWorkers).of_reachable
    (system_refines.reachable sound_invariant reachable)
  let change := claimed (worldAt 0) s.settings.leaseMs
  obtain ⟨text, claims⟩ := claimNext_works sourced s.settings.leaseMs
    (show ∀ n, (worldAt 0).fault n = none from fun _ => rfl) oldest
  obtain ⟨found, queued, -⟩ := Store.oldest_spec oldest
  have step := Step.claim slot (worldAt 0) idle
  have reply := congrArg Prod.fst claims
  obtain ⟨row, source, found', -, stored, same, -, -⟩ := Store.claimNext_job reply
  have ids : origin.id = row.id := congrArg Job.id same
  have texts : text = source.source := congrArg Job.source same
  have store : (s.perform (.claimNext (worldAt 0) s.settings.leaseMs)).queue.store =
      s.queue.store.set origin.id change := congrArg Prod.snd claims
  rw [reply] at step
  have attempt : (UInt32.ofNat (origin.attempt + 1)).toNat = origin.attempt + 1 :=
    UInt32.toNat_ofNat_of_lt' room
  refine ⟨source, _, by rw [ids]; exact stored, step, .of_set rfl store,
    jobOf (change.set origin) text, System.workers_setWorker _ _ _, rfl, attempt,
    ⟨change.set origin, ?_, attempt.symm, rfl, rfl, rfl, rfl⟩, fun sandbox => by rw [texts]; rfl⟩
  show (s.perform (.claimNext (worldAt 0) s.settings.leaseMs)).queue.store.submissions.get _ = _
  rw [store]
  show (s.queue.store.set origin.id change).submissions.get origin.id = _
  rw [Store.get_set, if_pos rfl, found]
  rfl

/-- **A submission that is put back is again the oldest.** -/
theorem oldest_again {after : System} {row : Row} (oldest : s.queue.store.oldest = some origin)
    (beside : Beside origin.id s after) (resembles : Resembles origin row)
    (found : after.queue.store.submissions.get origin.id = some row)
    (queued : row.status = .queued) : after.queue.store.oldest = some row := by
  obtain ⟨-, -, least⟩ := Store.oldest_spec oldest
  cases first : after.queue.store.oldest with
  | none => exact absurd queued (oldest_eq_none.mp first row (Table.get_eq_some.mp found).1)
  | some other =>
    obtain ⟨held, waits, least'⟩ := Store.oldest_spec first
    by_cases same : other.id = origin.id
    · rw [same, found] at held
      exact held.symm
    · have before := beside.others other.id same
      rw [held] at before
      have one := least other (Table.get_eq_some.mp before.symm).1 waits
      have two := least' row (Table.get_eq_some.mp found).1 queued
      rw [resembles.rank] at two
      have ids := congrArg (fun place => (ofLex place).2) (le_antisymm one two)
      exact absurd ids.symm same

/-- **The oldest submission becomes DONE**, after as many attempts as it takes. -/
theorem settles_oldest (sandbox : Environment Call.Answer) (left : Nat)
    (reachable : system.Reachable s) (idle : s.workers slot = .idle)
    (oldest : s.queue.store.oldest = some origin) (room : origin.attempt + 1 < 2 ^ 32)
    (bound : s.settings.maxAttempts.toNat ≤ origin.attempt + left) :
    ∃ after, Alone slot s after ∧ after.workers slot = .idle ∧ Beside origin.id s after ∧
      ∃ last source, s.queue.store.sources.get origin.id = some source ∧
        after.queue.store.submissions.get origin.id = some last ∧ last.status = .done ∧
        last.verdict = some (verdictOn s.settings sandbox (jobOf origin source.source)) := by
  induction left using Nat.strongRecOn generalizing s origin with
  | ind left ih =>
    obtain ⟨source, taken, stored, claim, beside, job, here, id, attempt, held, verdict⟩ :=
      claims_oldest reachable idle oldest room
    obtain ⟨middle, attempting, idle', beside', row, found, resembles, ends⟩ :=
      attempts_job sandbox here held
    rw [id] at beside' found
    have leads : Alone slot s middle := .next rfl claim attempting
    have both := beside.trans beside'
    rw [beside.settings, verdict] at ends
    rcases ends with ⟨done, told⟩ | ⟨queued, tried, again⟩
    · exact ⟨middle, leads, idle', both, row, source, stored, found, done, told⟩
    · -- Fewer attempts are left, and the limit is a `u32`.
      rw [attempt] at tried
      have more := UInt32.lt_iff_toNat_lt.mp again
      rw [attempt] at more
      have small := s.settings.maxAttempts.toNat_lt
      have room' : row.attempt + 1 < 2 ^ 32 := by omega
      have bound' : middle.settings.maxAttempts.toNat ≤ row.attempt + (left - 1) := by
        rw [both.settings]
        omega
      obtain ⟨after, more, idle'', beside'', last, source', stored', found', done, told⟩ :=
        ih (left - 1) (by omega) (leads.reachable reachable) idle'
          (oldest_again oldest both resembles found queued) room' bound'
      have same : row.id = origin.id := Table.get_key found
      rw [same] at beside'' stored' found'
      rw [both.sources] at stored'
      cases stored.symm.trans stored'
      refine ⟨after, leads.trans more, idle'', both.trans beside'', last, source, stored, found',
        done, ?_⟩
      rw [told, both.settings]
      unfold verdictOn requestFor jobOf
      rw [resembles.problem, resembles.language]

/-- What waits afterwards waited before. -/
theorem waiting_beside {after : System} {last : Row} (beside : Beside origin.id s after)
    (found : after.queue.store.submissions.get origin.id = some last) (done : last.status = .done)
    {row : Row} : row ∈ after.queue.store.waiting ↔
      row ∈ s.queue.store.waiting ∧ row.id ≠ origin.id := by
  rw [mem_waiting, mem_waiting]
  by_cases same : row.id = origin.id
  · refine iff_of_false (fun waits => ?_) fun waits => waits.2 same
    rw [same, found] at waits
    cases waits.1
    cases done.symm.trans waits.2
  · rw [beside.others row.id same]
    exact (and_iff_left same).symm

/-- **One fewer waits.** -/
theorem waiting_lt {after : System} {last : Row} (oldest : s.queue.store.oldest = some origin)
    (beside : Beside origin.id s after)
    (found : after.queue.store.submissions.get origin.id = some last) (done : last.status = .done) :
    after.queue.store.waiting.length < s.queue.store.waiting.length := by
  obtain ⟨stored, queued, -⟩ := Store.oldest_spec oldest
  have distinct : after.queue.store.waiting.Nodup := (nodup_seniority _).of_map seniority
  have apart : origin ∉ after.queue.store.waiting := fun waits =>
    ((waiting_beside beside found done).mp waits).2 rfl
  have inside : origin :: after.queue.store.waiting ⊆ s.queue.store.waiting := by
    intro row member
    rcases List.mem_cons.mp member with rfl | member
    · exact mem_waiting.mpr ⟨stored, queued⟩
    · exact ((waiting_beside beside found done).mp member).1
  exact (List.subperm_of_subset (List.nodup_cons.mpr ⟨apart, distinct⟩) inside).length_le

end Attempts

/-- What one worker alone can do with a queue: all that waits becomes DONE, with the verdicts of
`judge`, and nothing else changes. -/
structure Drained (sandbox : Environment Call.Answer) (s after : System) : Prop where
  empty : after.queue.store.waiting = []
  others : ∀ id row, s.queue.store.submissions.get id = some row → row.status ≠ .queued →
    after.queue.store.submissions.get id = some row
  done : ∀ row ∈ s.queue.store.waiting, ∃ last source,
    s.queue.store.sources.get row.id = some source ∧
    after.queue.store.submissions.get row.id = some last ∧ last.status = .done ∧
    last.verdict = some (verdictOn s.settings sandbox (jobOf row source.source))

/-- One submission after the other, the oldest first. -/
theorem drains {s : System} (reachable : system.Reachable s) {slot : Nat}
    (idle : s.workers slot = .idle) (sandbox : Environment Call.Answer)
    (room : ∀ row ∈ s.queue.store.waiting, row.attempt + 1 < 2 ^ 32) :
    ∃ after, system.Leads (fun event => event.worker = some slot) s after ∧
      after.workers slot = .idle ∧ Drained sandbox s after := by
  generalize size : s.queue.store.waiting.length = waiting
  induction waiting using Nat.strongRecOn generalizing s with
  | ind waiting ih =>
    cases oldest : s.queue.store.oldest with
    | none =>
      have none (row : Row) : row ∉ s.queue.store.waiting := fun waits =>
        oldest_eq_none.mp oldest row (Table.get_eq_some.mp (mem_waiting.mp waits).1).1
          (mem_waiting.mp waits).2
      exact ⟨s, .refl s, idle, List.eq_nil_iff_forall_not_mem.mpr none, fun _ _ found _ => found,
        fun row waits => absurd waits (none row)⟩
    | some origin =>
      obtain ⟨stored, queued, -⟩ := Store.oldest_spec oldest
      have waits := mem_waiting.mpr ⟨stored, queued⟩
      obtain ⟨middle, leads, idle', beside, last, source, sourced, found, done, verdict⟩ :=
        settles_oldest sandbox s.settings.maxAttempts.toNat reachable idle oldest
          (room origin waits) (Nat.le_add_left _ _)
      have fewer := waiting_lt oldest beside found done
      rw [size] at fewer
      obtain ⟨after, more, idle'', drained⟩ := ih _ fewer (leads.reachable reachable) idle'
        (fun row waits => room row ((waiting_beside beside found done).mp waits).1) rfl
      refine ⟨after, leads.trans more, idle'', drained.empty, ?_, ?_⟩
      · intro id row held ended
        refine drained.others id row ?_ ended
        rw [beside.others id fun same => ended ?_]
        · exact held
        · rw [same, stored] at held
          cases held
          exact queued
      · intro row waits
        by_cases same : row.id = origin.id
        · have both := (mem_waiting.mp waits).1
          rw [same, stored] at both
          cases both
          refine ⟨last, source, sourced, ?_, done, verdict⟩
          exact drained.others _ last found (by rw [done]; decide)
        · have still := (waiting_beside beside found done).mpr ⟨waits, same⟩
          obtain ⟨last, source, sourced, told⟩ := drained.done row still
          rw [beside.sources] at sourced
          rw [beside.settings] at told
          exact ⟨last, source, sourced, told⟩

end Server

end Codexec.Server
