/-
**Live workers and their leases.**

The lease of a job is renewed by every progress event, and a command in the sandbox comes right
after one. So if the lease covers the timeout of every command of a job (`Covers`), the worker that
is at this attempt never lets it expire (`Live`): the sweeper does not touch its submission, whatever
the other workers and their jobs do. Nothing checks `Covers` when the configuration is loaded.
-/

import Codexec.Server.Clock
import Codexec.Server.Lease

namespace Codexec.Server

open Codexec Codexec.Library Machine Program

/-! ### Configurations -/

/-- The lease covers the timeout of every command of a job. -/
structure Covers (settings : Settings) (job : Job) : Prop where
  positive : 0 ≤ settings.leaseMs.toInt
  compile : ∀ lang step, settings.judge.languages.get job.language = some lang →
    lang.compile = some step →
      ((settings.judge.compileSpec lang step).limits.guard : Int) ≤ settings.leaseMs.toInt
  run : ∀ lang problem, settings.judge.languages.get job.language = some lang →
    settings.problems.get job.problem = some problem →
      ((settings.judge.runSpec lang (requestFor job problem)).limits.guard : Int) ≤
        settings.leaseMs.toInt

section Server

variable [Host]

/-- The lease covers every command of the job and is added without overflow. -/
structure Ample (t : Timed) (job : Job) : Prop where
  covers : Covers t.system.settings job
  fits : t.clock + t.system.settings.leaseMs.toInt < 2 ^ 63

/-! ### All workers -/

/-- The job of a worker. -/
def Phase.job? : Phase → Option Job
  | .idle => none
  | .claimed job => some job
  | .judging run => some run.job
  | .storing job _ _ => some job
  | .reporting job _ => some job
  | .publishing job _ _ => some job

/-- The worker has a job and has not written its outcome. -/
def Phase.active : Phase → Bool
  | .claimed _ => true
  | .judging _ => true
  | .storing _ _ _ => true
  | _ => false

/-- So far the lease of the job reaches: an event that was recorded has renewed it. -/
def Phase.need (lease : Int) (clock since : Nat) : Phase → Int
  | .judging run =>
    if run.stage.told && run.channel.isEmpty then max clock (since + lease) else clock
  | _ => clock

/-- The run judges with what the process has loaded. -/
def Judging.Current (run : Judging) (settings : Settings) : Prop :=
  run.judge = settings.judge ∧ settings.problems.get run.job.problem = some run.problem

/-- Time may have passed since the last call of the run. -/
def Judging.Resting (run : Judging) : Prop := run.channel = [] ∧ ∃ spec, run.Executing spec

/-- The lease is ample for the attempt in a step after which a worker has it. -/
def AmpleFor (token : Token) (t next : Timed) : Prop :=
  ∀ slot job, (next.system.workers slot).job? = some job → job.token = token → Ample t job

/-- What an attempt asks of a step: while a worker has it, the lease is ample for it, and what its
heartbeats write is recorded. -/
structure Tended (token : Token) (taken : Transition Timed TimedEvent) : Prop where
  ample : AmpleFor token taken.before taken.after
  heard : ∀ slot world run, taken.label = .act (.heartbeat slot world) →
    taken.before.system.workers slot = .judging run → run.job.token = token → world.fault 0 = none

/-- The workers that have the attempt keep its lease. -/
structure Live (token : Token) (t : Timed) : Prop where
  since : ∀ slot, t.since slot ≤ t.clock
  kept : ∀ slot job, (t.system.workers slot).job? = some job → job.token = token →
    Kept t.system.queue job (t.system.workers slot).active
      ((t.system.workers slot).need t.lease t.clock (t.since slot))
  apart : ∀ slot other job job', slot ≠ other → (t.system.workers slot).active = true →
    (t.system.workers other).active = true → (t.system.workers slot).job? = some job →
      (t.system.workers other).job? = some job' → job.token = token → job'.token = token →
        ∀ row, t.system.queue.store.submissions.get job.id = some row → 2 ^ 32 ≤ row.attempt
  judging : ∀ slot run, t.system.workers slot = .judging run →
    run.Current t.system.settings ∧ (¬ run.Resting → t.clock = t.since slot)

section Need

variable {lease : Int} {clock since : Nat} {phase : Phase}

theorem Phase.need_judging {run : Judging} : (Phase.judging run).need lease clock since =
    if run.stage.told && run.channel.isEmpty then max ↑clock (since + lease) else ↑clock := rfl

theorem Phase.le_need : (clock : Int) ≤ phase.need lease clock since := by
  unfold Phase.need
  split
  · split
    · exact le_max_left _ _
    · exact le_refl _
  · exact le_refl _

theorem Phase.need_le (positive : 0 ≤ lease) (past : since ≤ clock) :
    phase.need lease clock since ≤ clock + lease := by
  unfold Phase.need
  split
  · split
    · exact max_le (by omega) (by omega)
    · omega
  · omega

end Need

omit [Host] in
/-- Attempts only grow. -/
theorem attempt_le {state : Queue} {op : Op} {id : String} {row next : Row}
    (found : state.store.submissions.get id = some row)
    (found' : (state.perform op).store.submissions.get id = some next) :
    row.attempt ≤ next.attempt := by
  obtain ⟨next', held, moved⟩ := op.row_cases found
  cases found'.symm.trans held
  rcases moved.attempt with same | ⟨_, _, _, more⟩
  · exact ge_of_eq same
  · omega

/-- The queue after an action of a worker: the same, or after one call in time, which ends an
attempt only if it is this worker's. -/
def Advances (t : Timed) (slot : Nat) (after : Queue) : Prop :=
  after = t.system.queue ∨ ∃ op, after = t.system.queue.perform op ∧
    op.OnTime t.clock t.system.settings.leaseMs ∧
      ∀ token, op.ending = some token → (t.system.workers slot).active = true ∧
        ∃ job, (t.system.workers slot).job? = some job ∧ token = job.token

section Moves

variable {token : Token} {t next : Timed} {slot : Nat} {after : Queue} {current : Phase}

/-- A write that ends the attempt of the worker itself. -/
theorem Advances.of_ending {job : Job} {op : Op} (here : t.system.workers slot = current)
    (has : current.job? = some job) (active : current.active = true)
    (onTime : op.OnTime t.clock t.system.settings.leaseMs) (ending : op.ending = some job.token) :
    Advances t slot (t.system.queue.perform op) := by
  refine Or.inr ⟨op, rfl, onTime, fun token ends => ?_⟩
  cases ending.symm.trans ends
  rw [here]
  exact ⟨active, job, has, rfl⟩

/-- The lease of a worker whose phase is known. -/
theorem Live.kept_of (live : Live token t) {job : Job} (here : t.system.workers slot = current)
    (has : current.job? = some job) (own : job.token = token) : Kept t.system.queue job
      current.active (current.need t.lease t.clock (t.since slot)) := by
  have kept := live.kept slot job (by rw [here, has]) own
  rw [here] at kept
  exact kept

theorem Live.kept_other (live : Live token t) (advances : Advances t slot after)
    {other : Nat} {job : Job} (different : other ≠ slot)
    (has : (t.system.workers other).job? = some job) (own : job.token = token)
    (ample : Ample t job) : Kept after job (t.system.workers other).active
      ((t.system.workers other).need t.lease t.clock (t.since other)) := by
  have kept := live.kept other job has own
  rcases advances with rfl | ⟨op, rfl, onTime, ends⟩
  · exact kept
  · refine kept.perform onTime ample.covers.positive ample.fits Phase.le_need
      (Phase.need_le ample.covers.positive (live.since other)) ?_
    intro active row found small ending
    obtain ⟨active', job', has', same⟩ := ends _ ending
    have large := live.apart other slot job job' different active active' has has' own
      (same.symm.trans own) row found
    omega

/-- A worker that has ended its attempt. -/
theorem Live.kept_retired (live : Live token t) (advances : Advances t slot after)
    {other : Nat} {job : Job} (has : (t.system.workers other).job? = some job)
    (own : job.token = token) (ample : Ample t job) : Kept after job false t.clock := by
  have kept := ((live.kept other job has own).mono Phase.le_need).retired
  rcases advances with rfl | ⟨op, rfl, onTime, ends⟩
  · exact kept
  · have positive := ample.covers.positive
    exact kept.perform onTime positive ample.fits (le_refl _) (by omega) fun live => by cases live

theorem Live.apart_after (live : Live token t) (advances : Advances t slot after) {one other : Nat}
    {job job' : Job} (different : one ≠ other) (active : (t.system.workers one).active = true)
    (active' : (t.system.workers other).active = true)
    (has : (t.system.workers one).job? = some job)
    (has' : (t.system.workers other).job? = some job') (own : job.token = token)
    (own' : job'.token = token) {next : Row}
    (found : after.store.submissions.get job.id = some next) : 2 ^ 32 ≤ next.attempt := by
  obtain ⟨row, held, _⟩ := live.kept one job has own
  have large := live.apart one other job job' different active active' has has' own own' row held
  rcases advances with rfl | ⟨op, rfl, _⟩
  · cases found.symm.trans held
    exact large
  · exact large.trans (attempt_le held found)

/-- **One worker moves on**, and the others are as they were. -/
theorem Live.move (live : Live token t) (ample : AmpleFor token t next) {phase : Phase}
    (settings : next.system.settings = t.system.settings) (clock : next.clock = t.clock)
    (workers : next.system.workers = Function.update t.system.workers slot phase)
    (since : ∀ other, other ≠ slot → next.since other = t.since other)
    (past : next.since slot ≤ t.clock) (advances : Advances t slot next.system.queue)
    (kept : ∀ job, phase.job? = some job → job.token = token → Ample t job →
      Kept next.system.queue job phase.active (phase.need t.lease t.clock (next.since slot)))
    (apart : ∀ other job job', other ≠ slot → phase.active = true →
      (t.system.workers other).active = true → phase.job? = some job →
        (t.system.workers other).job? = some job' → job.token = token → job'.token = token →
          ∀ row, next.system.queue.store.submissions.get job.id = some row → 2 ^ 32 ≤ row.attempt)
    (judging : ∀ run, phase = .judging run → run.Current t.system.settings ∧
      (¬ run.Resting → t.clock = next.since slot)) : Live token next := by
  have lease : next.lease = t.lease := by rw [Timed.lease, settings, Timed.lease]
  have own : next.system.workers slot = phase := by rw [workers, Function.update_self]
  have others : ∀ other, other ≠ slot → next.system.workers other = t.system.workers other := by
    intro other different
    rw [workers, Function.update_of_ne different]
  refine ⟨fun other => ?_, fun other job has fits => ?_, ?_, fun other run here => ?_⟩
  · by_cases same : other = slot
    · rw [same, clock]
      exact past
    · rw [since other same, clock]
      exact live.since other
  · have enough := ample other job has fits
    by_cases same : other = slot
    · subst same
      rw [own] at has ⊢
      rw [lease, clock]
      exact kept job has fits enough
    · rw [others other same] at has ⊢
      rw [lease, clock, since other same]
      exact live.kept_other advances same has fits enough
  · intro one other job job' different active active' has has' fits fits' row found
    by_cases first : one = slot
    · subst first
      have second : other ≠ one := Ne.symm different
      rw [own] at active has
      rw [others other second] at active' has'
      exact apart other job job' second active active' has has' fits fits' row found
    · rw [others one first] at active has
      by_cases second : other = slot
      · subst second
        have key : job.id = job'.id := congrArg Token.id (fits.trans fits'.symm)
        rw [own] at active' has'
        rw [key] at found
        exact apart one job' job first active' active has' has fits' fits row found
      · rw [others other second] at active' has'
        exact live.apart_after advances different active active' has has' fits fits' found
  · by_cases same : other = slot
    · subst same
      rw [own] at here
      rw [settings, clock]
      exact judging run here
    · rw [others other same] at here
      rw [settings, clock, since other same]
      exact live.judging other run here

/-- A worker that is done with its job, or got none. -/
theorem Live.rest (live : Live token t) (ample : AmpleFor token t next)
    (settings : next.system.settings = t.system.settings) (clock : next.clock = t.clock)
    (workers : next.system.workers = Function.update t.system.workers slot .idle)
    (since : next.since = t.since) (advances : Advances t slot next.system.queue) :
    Live token next := by
  refine live.move ample settings clock workers (fun _ _ => by rw [since]) ?_ advances
    (fun job has => ?_) (fun _ _ _ _ active => ?_) (fun run here => ?_)
  · rw [since]
    exact live.since slot
  · cases has
  · cases active
  · cases here

/-- A worker that goes on with its job. -/
theorem Live.goOn (live : Live token t) (ample : AmpleFor token t next) {job : Job} {phase : Phase}
    (here : t.system.workers slot = current) (has : current.job? = some job)
    (active : current.active = true) (same : phase.job? = some job)
    (settings : next.system.settings = t.system.settings) (clock : next.clock = t.clock)
    (workers : next.system.workers = Function.update t.system.workers slot phase)
    (since : ∀ other, other ≠ slot → next.since other = t.since other)
    (past : next.since slot ≤ t.clock) (advances : Advances t slot next.system.queue)
    (kept : job.token = token → Ample t job →
      Kept next.system.queue job phase.active (phase.need t.lease t.clock (next.since slot)))
    (judging : ∀ run, phase = .judging run → run.Current t.system.settings ∧
      (¬ run.Resting → t.clock = next.since slot)) : Live token next := by
  rw [← here] at has active
  refine live.move ample settings clock workers since past advances
    (fun job' goes fits enough => ?_)
    (fun other job' job'' different _ active' goes has' fits fits' row found => ?_) judging
  · cases same.symm.trans goes
    exact kept fits enough
  · cases same.symm.trans goes
    exact live.apart_after advances (Ne.symm different) active active' has has' fits fits' found

/-- A worker that has written its outcome. -/
theorem Live.ends (live : Live token t) (ample : AmpleFor token t next) {job : Job} {phase : Phase}
    (here : t.system.workers slot = current) (has : current.job? = some job)
    (same : phase.job? = some job) (inactive : phase.active = false)
    (settings : next.system.settings = t.system.settings) (clock : next.clock = t.clock)
    (workers : next.system.workers = Function.update t.system.workers slot phase)
    (since : next.since = t.since) (advances : Advances t slot next.system.queue) :
    Live token next := by
  have running : ∀ run, phase ≠ .judging run := by
    rintro run rfl
    cases inactive
  have need : phase.need t.lease t.clock (next.since slot) = t.clock := by
    cases phase with
    | judging run => exact absurd rfl (running run)
    | _ => rfl
  refine live.move ample settings clock workers (fun _ _ => by rw [since]) ?_ advances
    (fun job' goes fits enough => ?_) (fun _ _ _ _ active => ?_)
    (fun run same => absurd same (running run))
  · rw [since]
    exact live.since slot
  · cases same.symm.trans goes
    rw [inactive, need]
    exact live.kept_retired advances ((congrArg Phase.job? here).trans has) fits enough
  · rw [inactive] at active
    cases active

/-- **The workers rest**, and the queue stays or takes one call in time that ends no attempt. -/
theorem Live.stay (live : Live token t) (ample : AmpleFor token t next)
    (settings : next.system.settings = t.system.settings) (clock : next.clock = t.clock)
    (workers : next.system.workers = t.system.workers) (since : next.since = t.since)
    (advances : next.system.queue = t.system.queue ∨ ∃ op,
      next.system.queue = t.system.queue.perform op ∧
        op.OnTime t.clock t.system.settings.leaseMs ∧ op.ending = none) : Live token next := by
  have advances : ∀ slot, Advances t slot next.system.queue := by
    intro slot
    rcases advances with same | ⟨op, same, onTime, none⟩
    · exact Or.inl same
    · refine Or.inr ⟨op, same, onTime, fun token ends => ?_⟩
      rw [none] at ends
      cases ends
  have lease : next.lease = t.lease := by rw [Timed.lease, settings, Timed.lease]
  refine ⟨fun other => ?_, fun other job has fits => ?_, ?_, fun other run here => ?_⟩
  · rw [since, clock]
    exact live.since other
  · have enough := ample other job has fits
    rw [workers] at has ⊢
    rw [lease, clock, since]
    exact live.kept_other (advances (other + 1)) (Nat.ne_of_lt (Nat.lt_succ_self other)) has fits
      enough
  · intro one other job job' different active active' has has' fits fits' row found
    rw [workers] at active active' has has'
    exact live.apart_after (advances one) different active active' has has' fits fits' found
  · rw [workers] at here
    rw [settings, clock, since]
    exact live.judging other run here

end Moves

/-! ### Judging under a lease -/

/-- **A command comes after an event that was reported**, and the lease covers it. -/
theorem executing_covered {settings : Settings} {run : Judging} {spec : ExecSpec}
    (covers : Covers settings run.job) (current : run.Current settings)
    (executing : run.Executing spec) :
    run.stage.told = true ∧ (spec.limits.guard : Int) ≤ settings.leaseMs.toInt := by
  obtain ⟨stdin, next, calls⟩ := executing
  obtain ⟨engine, found⟩ := current
  rcases run.obeys with ⟨e, stopped⟩ | ⟨lang, known, obeys⟩
  · rw [stopped] at calls
    cases calls
  · rw [calls] at obeys
    rw [engine] at known obeys
    have permitted : settings.judge.permits lang (requestFor run.job run.problem) run.stage
      (.exec spec stdin) := obeys.of_call.1
    cases stage : run.stage with
    | quiet => rw [stage] at permitted; exact permitted.elim
    | compiled => rw [stage] at permitted; exact permitted.elim
    | ran done => rw [stage] at permitted; exact permitted.elim
    | compiling =>
      rw [stage] at permitted
      obtain ⟨step, compiles, rfl⟩ := permitted
      exact ⟨rfl, covers.compile _ _ known compiles⟩
    | running done =>
      rw [stage] at permitted
      obtain ⟨_, rfl⟩ := permitted
      exact ⟨rfl, covers.run _ _ known found⟩

/-- A call of the run asks for no longer lease than before. -/
theorem need_answered {run : Judging} {request : Call}
    {next : Call.Answer request → JudgeM (Except JudgeError JudgeResult)}
    (calls : run.rest = .call request next) (answer : Call.Answer request) {lease : Int}
    {clock since : Nat} (busy : ¬ run.Resting → clock = since) :
    (Phase.judging (run.answered calls answer)).need lease clock clock ≤
      (Phase.judging run).need lease clock since := by
  have quiet : (run.answered calls answer).stage.told = false ∨
      (run.answered calls answer).channel.isEmpty = false →
        (Phase.judging (run.answered calls answer)).need lease clock clock ≤
          (Phase.judging run).need lease clock since := by
    intro off
    have none : ((run.answered calls answer).stage.told &&
        (run.answered calls answer).channel.isEmpty) = false := by
      rcases off with untold | waiting
      · rw [untold, Bool.false_and]
      · rw [waiting, Bool.and_false]
    rw [Phase.need_judging, none]
    exact Phase.le_need
  -- Any other call changes neither the stage nor the channel, and takes no time.
  have plain : (∀ spec stdin, request ≠ .exec spec stdin) →
      (run.answered calls answer).stage = run.stage → Judging.sent request = [] →
        (Phase.judging (run.answered calls answer)).need lease clock clock ≤
          (Phase.judging run).need lease clock since := by
    intro other stage sent
    have channel : (run.answered calls answer).channel = run.channel := by
      show run.channel ++ Judging.sent request = run.channel
      rw [sent, List.append_nil]
    have now : clock = since := by
      refine busy ?_
      rintro ⟨_, spec, stdin, next', calls'⟩
      rw [calls] at calls'
      cases calls'
      exact other _ _ rfl
    rw [Phase.need_judging, Phase.need_judging, stage, channel, now]
  cases request with
  | exec spec stdin =>
    refine quiet (Or.inl ?_)
    rw [Judging.stage_answered calls answer]
    exact Stage.told_exec _ _ _ _
  | notify event =>
    refine quiet (Or.inr ?_)
    show (run.channel ++ [event]).isEmpty = false
    simp
  | acquire =>
    refine plain (fun _ _ same => by cases same) ?_ rfl
    rw [Judging.stage_answered calls answer]
    cases run.stage <;> rfl
  | writeFile name contents =>
    refine plain (fun _ _ same => by cases same) ?_ rfl
    rw [Judging.stage_answered calls answer]
    cases run.stage <;> rfl
  | release =>
    refine plain (fun _ _ same => by cases same) ?_ rfl
    rw [Judging.stage_answered calls answer]
    cases run.stage <;> rfl

/-- **Time runs out for nobody.** -/
theorem Live.wait {token : Token} {t : Timed} {ms : Nat} (live : Live token t)
    (ample : AmpleFor token t { t with clock := t.clock + ms }) (patient : t.Patient ms) :
    Live token { t with clock := t.clock + ms } := by
  refine ⟨fun slot => ?_, fun slot job has own => ?_, live.apart, fun slot run here => ?_⟩
  · exact (live.since slot).trans (Nat.le_add_right _ _)
  · have waits := patient slot
    cases phase : t.system.workers slot with
    | idle => rw [phase] at has; cases has
    | claimed job => rw [phase] at waits; exact waits.elim
    | storing job problem outcome => rw [phase] at waits; exact waits.elim
    | reporting job wrote => rw [phase] at waits; exact waits.elim
    | publishing job wrote sub => rw [phase] at waits; exact waits.elim
    | judging run =>
      have enough := ample slot job has own
      have kept := live.kept slot job has own
      rw [phase] at waits has kept
      cases has
      obtain ⟨empty, _, spec, executing, inTime⟩ := waits
      obtain ⟨told, covered⟩ :=
        executing_covered enough.covers (live.judging slot run phase).1 executing
      have on : (run.stage.told && run.channel.isEmpty) = true := by
        rw [told, empty]
        rfl
      refine kept.mono ?_
      rw [Phase.need_judging, Phase.need_judging, if_pos on, if_pos on]
      have bound : ((t.clock + ms : Nat) : Int) ≤ t.since slot + t.lease := by
        have lease : t.lease = t.system.settings.leaseMs.toInt := rfl
        omega
      exact (max_le bound (le_refl _)).trans (le_max_right _ _)
  · have waits := patient slot
    rw [here] at waits
    refine ⟨(live.judging slot run here).1, fun busy => absurd ?_ busy⟩
    obtain ⟨empty, _, spec, executing, _⟩ := waits
    exact ⟨empty, spec, executing⟩

/-! ### Every action -/

theorem storeOp_ending (settings : Settings) (world : World) (job : Job) (problem : Problem)
    (outcome : Except JudgeError JudgeResult) :
    (storeOp settings world job problem outcome).ending = some job.token ∧
      ∀ clock leaseMs, (storeOp settings world job problem outcome).OnTime clock leaseMs := by
  unfold storeOp
  split <;> exact ⟨rfl, fun _ _ => trivial⟩

/-- A job that was claimed is kept. -/
theorem kept_claimed {t : Timed} {world : World} {job : Job} (ample : Ample t job)
    (now : world.now = Int64.ofNat t.clock)
    (claims : (t.system.queue.store.claimNext world t.system.settings.leaseMs).1 = .ok (some job)) :
    Kept (t.system.queue.perform (.claimNext world t.system.settings.leaseMs)) job true
      t.clock := by
  obtain ⟨row, source, held, queued, -, rfl, -, found⟩ := Store.claimNext_job claims
  have number : (UInt32.ofNat (row.attempt + 1)).toNat = (row.attempt + 1) % 2 ^ 32 :=
    UInt32.toNat_ofNat'
  refine ⟨_, found, ?_, fun _ _ => ⟨_, rfl, ?_⟩, fun _ small => ⟨?_, rfl⟩⟩
  · show (UInt32.ofNat (row.attempt + 1)).toNat ≤ row.attempt + 1
    rw [number]
    exact Nat.mod_le _ _
  · rw [now, renewed ample.covers.positive ample.fits]
    have positive := ample.covers.positive
    omega
  · show row.attempt + 1 = (UInt32.ofNat (row.attempt + 1)).toNat
    rw [number]
    exact (Nat.mod_eq_of_lt small).symm

/-- **Nobody else has an attempt that was just claimed**, as long as attempts fit. -/
theorem Live.apart_claimed {token : Token} {t : Timed} (live : Live token t) {world : World}
    {job job' : Job} (own : job.token = token)
    (claims : (t.system.queue.store.claimNext world t.system.settings.leaseMs).1 = .ok (some job))
    {other : Nat} (active : (t.system.workers other).active = true)
    (has : (t.system.workers other).job? = some job') (own' : job'.token = token) {next : Row}
    (held : (t.system.queue.perform
      (.claimNext world t.system.settings.leaseMs)).store.submissions.get job.id = some next) :
    2 ^ 32 ≤ next.attempt := by
  obtain ⟨row, source, stored, queued, -, rfl, -, found⟩ := Store.claimNext_job claims
  have same : next = (Server.claimed world t.system.settings.leaseMs).set row :=
    Option.some.inj (held.symm.trans found)
  have attempt : next.attempt = row.attempt + 1 := by rw [same]; rfl
  obtain ⟨row', stored', _, _, current⟩ := live.kept other job' has own'
  have key : row.id = job'.id := congrArg Token.id (own.trans own'.symm)
  rw [← key] at stored'
  cases stored.symm.trans stored'
  by_contra small
  have flying := (current active (by omega)).2
  rw [queued] at flying
  cases flying

/-- Before anything has happened. -/
theorem Live.start {token : Token} {t : Timed} (initial : timed.start t) : Live token t := by
  obtain ⟨⟨settings, same⟩, past⟩ := initial
  have idle : ∀ slot, t.system.workers slot = .idle := by
    rw [same]
    exact fun _ => rfl
  refine ⟨past, fun slot job has => ?_, fun slot _ _ _ _ active => ?_, fun slot run here => ?_⟩
  · rw [idle slot] at has
    cases has
  · rw [idle slot] at active
    cases active
  · rw [idle slot] at here
    cases here

/-- **The attempt keeps its lease**, in every step that tends to it. -/
theorem Live.step {token : Token} {t next : Timed} {label : TimedEvent} (live : Live token t)
    (tended : Tended token ⟨t, label, next⟩) (step : TimedStep t label next) : Live token next := by
  obtain ⟨ample, heard⟩ := tended
  cases step with
  | wait ms patient => exact live.wait ample patient
  | @act event after step reads =>
    cases step with
    | insert world new =>
      exact live.stay ample rfl rfl rfl rfl (Or.inr ⟨_, rfl, trivial, rfl⟩)
    | claim slot world idle =>
      have advances : Advances t slot
          (t.system.perform (.claimNext world t.system.settings.leaseMs)).queue :=
        Or.inr ⟨_, rfl, ⟨reads, rfl⟩, fun token ends => by cases ends⟩
      revert ample
      cases reply : (t.system.queue.store.claimNext world t.system.settings.leaseMs).1 with
      | error e => exact fun ample => live.rest ample rfl rfl rfl rfl advances
      | ok claimed =>
        intro ample
        cases claimed with
        | none => exact live.rest ample rfl rfl rfl rfl advances
        | some job =>
          refine live.move ample rfl rfl rfl (fun _ _ => rfl) (live.since slot)
            advances (fun job' has own enough => ?_)
            (fun other job' job'' _ _ active has has' own own' row found => ?_)
            (fun run here => ?_)
          · cases has
            exact kept_claimed enough reads reply
          · cases has
            exact live.apart_claimed own reply active has' own' found
          · cases here
    | @abandon slot world job here missing =>
      exact live.rest ample rfl rfl rfl rfl (.of_ending here rfl rfl trivial rfl)
    | @begin slot job problem here found =>
      have since : (t.acted (.begin slot) (t.system.setWorker slot
          (.judging (Judging.begin t.system.settings.judge job problem)))).since slot = t.clock :=
        Function.update_self _ _ _
      refine live.goOn ample here rfl rfl rfl rfl rfl rfl
        (fun _ different => Function.update_of_ne different _ _) (ge_of_eq since.symm)
        (Or.inl rfl) (fun own _ => ?_) (fun run same => ?_)
      · exact (live.kept_of here rfl own :)
      · cases same
        exact ⟨⟨rfl, found⟩, fun _ => since.symm⟩
    | @call slot run request following here calls answer =>
      have since : (t.acted (.call slot) (t.system.setWorker slot
          (.judging (run.answered calls answer)))).since slot = t.clock :=
        Function.update_self _ _ _
      refine live.goOn ample here rfl rfl rfl rfl rfl rfl
        (fun _ different => Function.update_of_ne different _ _) (ge_of_eq since.symm)
        (Or.inl rfl) (fun own _ => ?_) (fun run same => ?_)
      · rw [since]
        exact (live.kept_of here rfl own).mono
          (need_answered calls answer (live.judging slot run here).2)
      · cases same
        exact ⟨(live.judging slot _ here).1, fun _ => since.symm⟩
    | @heartbeat slot world run event later op here resting received writes =>
      have flying : (Judging.recorded event).1.inFlight = true := by cases event <;> rfl
      -- The event was waiting, so no time has passed since the run sent it.
      have now : t.clock = t.since slot := by
        refine (live.judging slot run here).2 fun resting => ?_
        rw [resting.1] at received
        cases received
      subst writes
      refine live.goOn ample here rfl rfl rfl rfl rfl rfl (fun _ _ => rfl) (live.since slot)
        (Or.inr ⟨_, rfl, ⟨reads, rfl, flying⟩, fun token ends => by cases ends⟩)
        (fun own enough => ?_) (fun run same => ?_)
      · have positive := enough.covers.positive
        have recorded := heard slot world run rfl here own
        exact ((live.kept_of here rfl own).renew recorded reads flying positive enough.fits).mono
          (Phase.need_le positive (live.since slot))
      · cases same
        exact ⟨(live.judging slot run here).1, fun _ => now⟩
    | @beatFetch slot world run here reading =>
      refine live.goOn ample here rfl rfl rfl rfl rfl rfl (fun _ _ => rfl) (live.since slot)
        (Or.inl rfl) (fun own _ => ?_) (fun run same => ?_)
      · exact (live.kept_of here rfl own :)
      · cases same
        exact live.judging slot run here
    | @beatPublish slot run sub here ready =>
      refine live.goOn ample here rfl rfl rfl rfl rfl rfl (fun _ _ => rfl) (live.since slot)
        (Or.inl rfl) (fun own _ => ?_) (fun run same => ?_)
      · exact (live.kept_of here rfl own :)
      · cases same
        exact live.judging slot run here
    | @returned slot run outcome here finished drained resting =>
      refine live.goOn ample here rfl rfl rfl rfl rfl rfl (fun _ _ => rfl) (live.since slot)
        (Or.inl rfl) (fun own _ => ?_) (fun run same => by cases same)
      exact (live.kept_of here rfl own).mono Phase.le_need
    | @store slot world job problem outcome op here writes =>
      obtain ⟨ending, onTime⟩ := storeOp_ending t.system.settings world job problem outcome
      rw [← writes] at ending onTime
      exact live.ends ample here rfl rfl rfl rfl rfl rfl rfl
        (.of_ending here rfl rfl (onTime _ _) ending)
    | @report slot world job wrote here =>
      revert ample
      cases reply : t.system.queue.store.get world job.id with
      | error e => exact fun ample => live.rest ample rfl rfl rfl rfl (Or.inl rfl)
      | ok found =>
        intro ample
        cases found with
        | none => exact live.rest ample rfl rfl rfl rfl (Or.inl rfl)
        | some sub => exact live.ends ample here rfl rfl rfl rfl rfl rfl rfl (Or.inl rfl)
    | publish slot here => exact live.rest ample rfl rfl rfl rfl (Or.inl rfl)
    | sweep world resting =>
      exact live.stay ample rfl rfl rfl rfl (Or.inr ⟨_, rfl, reads, rfl⟩)
    | prune swept => exact live.stay ample rfl rfl rfl rfl (Or.inl rfl)
    | subscribe id number fresh => exact live.stay ample rfl rfl rfl rfl (Or.inl rfl)
    | read number world found waits => exact live.stay ample rfl rfl rfl rfl (Or.inl rfl)
    | poll number found => exact live.stay ample rfl rfl rfl rfl (Or.inl rfl)
    | hangUp number => exact live.stay ample rfl rfl rfl rfl (Or.inl rfl)
    | restart settings world ready =>
      refine ⟨live.since, fun slot job has => ?_, fun slot _ _ _ _ active => ?_,
        fun slot run here => ?_⟩
      · cases has
      · cases active
      · cases here

/-! ### Runs -/

/-- A sweep does not touch the row of a live worker. -/
theorem swept_in_time {token : Token} {t next : Timed} (live : Live token t) {world : World}
    (ample : AmpleFor token t next) (step : TimedStep t (.act (.sweep world)) next) {slot : Nat}
    {job : Job} {row : Row} (has : (t.system.workers slot).job? = some job)
    (own : job.token = token) (found : t.system.queue.store.submissions.get job.id = some row)
    (current : row.attempt = job.attempt.toNat) :
    next.system.queue.store.submissions.get job.id = some row := by
  obtain ⟨after, acts, now, rfl⟩ := step.of_act
  have now : world.now = Int64.ofNat t.clock := now
  have workers : after.workers = t.system.workers := by cases acts; rfl
  have enough : Ample t job := ample slot job (by rw [← has, ← workers]; rfl) own
  obtain ⟨row', held, kept⟩ := live.kept slot job has own
  cases found.symm.trans held
  have unexpired : expired world.now row = false := by
    by_cases flying : row.status.inFlight = true
    · obtain ⟨until?, lease, reaches⟩ := kept.leased current flying
      have fits := enough.fits
      have positive := enough.covers.positive
      rw [now]
      exact not_expired (by omega) lease (Phase.le_need.trans reaches)
    · rw [expired, Bool.eq_false_iff.mpr flying, Bool.false_and]
  cases acts with
  | sweep _ _ =>
    obtain ⟨next, found', moved⟩ :=
      Op.row_cases (.sweep world t.system.settings.maxAttempts) found
    refine found'.trans (congrArg some ?_)
    cases moved with
    | same => rfl
    | sweptUp lost =>
      rw [hopeless, unexpired] at lost
      cases lost
    | sweptBack lost =>
      rw [recoverable, unexpired] at lost
      cases lost

omit [Host] in
/-- **The outcome of the current attempt is stored.** -/
theorem finish_applies {state : Queue} {world : World} {job : Job} {version judge : String}
    {result : JudgeResult} {row : Row} (works : world.fault 0 = none)
    (found : state.store.submissions.get job.id = some row)
    (current : row.attempt = job.attempt.toNat) (flying : row.status.inFlight = true) :
    (state.perform (.finish world job.token version judge result)).store.submissions.get job.id =
      some ((finished world version judge result).set row) := by
  have live : (row.status != .done) = true := by
    cases status : row.status with
    | done =>
      rw [status] at flying
      cases flying
    | _ => rfl
  have done := Store.execute_owned_of_row works found current (· != .done) live
    (finished world version judge result) (· == 1)
  show (state.store.execute world (owned job.id job.attempt (· != .done))
    (finished world version judge result) (· == 1)).2.submissions.get job.id = _
  rw [done, Store.get_set, if_pos rfl, found]
  rfl

/-- The result of a live worker is stored. -/
theorem stored_in_time {token : Token} {t next : Timed} (live : Live token t) {slot : Nat}
    {world : World} (step : TimedStep t (.act (.store slot world)) next) {job : Job}
    {problem : Problem} {result : JudgeResult} {row : Row}
    (here : t.system.workers slot = .storing job problem (.ok result)) (own : job.token = token)
    (works : world.fault 0 = none)
    (found : t.system.queue.store.submissions.get job.id = some row)
    (small : row.attempt < 2 ^ 32) : next.system.queue.store.submissions.get job.id =
      some ((finished world problem.version judgeVersion result).set row) := by
  have has : (t.system.workers slot).job? = some job := by rw [here]; rfl
  have active : (t.system.workers slot).active = true := by rw [here]; rfl
  obtain ⟨row', held, kept⟩ := live.kept slot job has own
  cases found.symm.trans held
  obtain ⟨current, flying⟩ := kept.own active small
  obtain ⟨after, acts, _, rfl⟩ := step.of_act
  cases acts with
  | store _ _ here' writes =>
    cases here.symm.trans here'
    subst writes
    exact finish_applies works found current flying

/-- **A live worker keeps its lease.** In every run that tends to an attempt, whatever becomes of
the others, no sweep touches its submission while a worker has it, the row stays in that attempt until
the worker has written the outcome, and a result is stored. -/
theorem live_worker_keeps_lease {steps : List (Transition Timed TimedEvent)} {t : Timed}
    {token : Token} (run : timed.Run steps t) (tended : ∀ taken ∈ steps, Tended token taken) :
    (∀ taken ∈ steps, ∀ world, taken.label = .act (.sweep world) → ∀ slot job row,
      (taken.before.system.workers slot).job? = some job → job.token = token →
        taken.before.system.queue.store.submissions.get job.id = some row →
          row.attempt = job.attempt.toNat →
            taken.after.system.queue.store.submissions.get job.id = some row) ∧
    (∀ slot job, (t.system.workers slot).active = true → (t.system.workers slot).job? = some job →
      job.token = token → ∃ row, t.system.queue.store.submissions.get job.id = some row ∧
        (row.attempt < 2 ^ 32 → row.attempt = job.attempt.toNat ∧ row.status.inFlight = true)) ∧
    ∀ taken ∈ steps, ∀ slot world job problem result row, taken.label = .act (.store slot world) →
      taken.before.system.workers slot = .storing job problem (.ok result) → job.token = token →
        world.fault 0 = none → taken.before.system.queue.store.submissions.get job.id = some row →
          row.attempt < 2 ^ 32 → taken.after.system.queue.store.submissions.get job.id =
            some ((finished world problem.version judgeVersion result).set row) := by
  obtain ⟨live, along⟩ := run.keeps (fun _ initial => Live.start initial)
    (fun taken live tended step => Live.step live tended step) tended
  refine ⟨?_, ?_, ?_⟩
  · rintro ⟨before, event, next⟩ member world label slot job row has own found current
    obtain rfl : event = .act (.sweep world) := label
    obtain ⟨live, step⟩ := along _ member
    exact swept_in_time live (tended _ member).ample step has own found current
  · intro slot job active has own
    obtain ⟨row, found, kept⟩ := live.kept slot job has own
    exact ⟨row, found, kept.own active⟩
  · rintro ⟨before, event, next⟩ member slot world job problem result row label here own works
      found small
    obtain rfl : event = .act (.store slot world) := label
    obtain ⟨live, step⟩ := along _ member
    exact stored_in_time live step here own works found small

end Server

/-! ### Runs of one worker -/

/-- The timeout of a Python program. -/
theorem guard_python (job : Job) (problem : Problem) :
    (sampleJudge.runSpec python (requestFor job problem)).limits.guard =
      (UInt64.ofNat (min (problem.timeLimitMs.toNat * 3) (2 ^ 64 - 1)) * 2 + 1000).toNat + 500 +
        15000 := by
  have product : cpuMs problem.timeLimitMs python.timeMultiplier = _ :=
    cpuMs_natCast problem.timeLimitMs 3
  show (cpuMs problem.timeLimitMs python.timeMultiplier * 2 + 1000).toNat + 500 + 15000 = _
  rw [product]

theorem guard_rust (job : Job) (problem : Problem) :
    (sampleJudge.runSpec rust (requestFor job problem)).limits.guard =
      (UInt64.ofNat (min (problem.timeLimitMs.toNat * 1) (2 ^ 64 - 1)) * 2 + 1000).toNat + 500 +
        15000 := by
  have one : rust.timeMultiplier = ((1 : Nat) : ℚ) := Nat.cast_one.symm
  have product := cpuMs_natCast problem.timeLimitMs 1
  rw [← one] at product
  show (cpuMs problem.timeLimitMs rust.timeMultiplier * 2 + 1000).toNat + 500 + 15000 = _
  rw [product]

/-- The job of the sample submission. -/
def sampleJob : Job := ⟨"s1", "p", "python", "print(1)", 1⟩

theorem sample_guard :
    22500 ≤ (sampleJudge.runSpec python (requestFor sampleJob sampleProblem)).limits.guard := by
  rw [guard_python]
  decide

/-- A problem with a limit of 15 seconds: a program in Python may take 106.5 seconds. -/
def slowSettings : Settings :=
  { sampleSettings with
    problems := ⟨[{ sampleProblem with timeLimitMs := 15000 }], List.nodup_singleton _⟩ }

theorem slow_guard (job : Job) {problem : Problem} (limit : problem.timeLimitMs = 15000) :
    60001 ≤ (sampleJudge.runSpec python (requestFor job problem)).limits.guard := by
  rw [guard_python, limit]
  decide

/-- A server with a slow problem besides the sample. -/
def mixedSettings : Settings :=
  { sampleSettings with
    problems := ⟨[sampleProblem, { sampleProblem with slug := "slow", timeLimitMs := 15000 }],
      by decide⟩ }

/-- A lease of a minute covers the commands of the sample submission. -/
theorem covers_sample : Covers mixedSettings sampleJob where
  positive := by decide
  compile lang step known compiles := by
    obtain rfl : python = lang := Option.some.inj known
    cases compiles
  run lang problem known found := by
    obtain rfl : python = lang := Option.some.inj known
    obtain rfl : sampleProblem = problem := Option.some.inj found
    rw [show mixedSettings.judge = sampleJudge from rfl, guard_python]
    decide

/-- It does not cover those of a submission to the slow problem. -/
theorem slow_uncovered : ¬ Covers mixedSettings { sampleJob with problem := "slow" } := by
  intro covers
  have short := covers.run python _ rfl rfl
  have long := slow_guard { sampleJob with problem := "slow" }
    (show ({ sampleProblem with slug := "slow", timeLimitMs := 15000 } : Problem).timeLimitMs =
      15000 from rfl)
  have lease : mixedSettings.leaseMs.toInt = 60000 := by decide
  have engine : mixedSettings.judge = sampleJudge := rfl
  rw [lease, engine] at short
  omega

/-- The small server, when nothing has happened. -/
def startedAt (settings : Settings) : @Timed plainHost :=
  letI := plainHost
  ⟨started settings, 0, fun _ => 0⟩

section Samples

attribute [local instance] plainHost

theorem ample_sample {t : @Timed plainHost} {settings : Settings} {job : Job}
    (loaded : t.system.settings = settings) (covers : Covers settings job)
    (minute : settings.leaseMs.toInt = 60000) (soon : t.clock < 2 ^ 62) :
    @Ample plainHost t job := by
  refine ⟨loaded ▸ covers, ?_⟩
  rw [loaded, minute]
  omega

/-- Only the first worker has a job. -/
theorem patient_of_first {t : @Timed plainHost} {ms : Nat}
    (first : t.waits ms 0 (t.system.workers 0))
    (others : ∀ slot, t.system.workers (slot + 1) = .idle) :
    t.Patient ms := by
  rintro (_ | slot)
  · exact first
  · rw [others slot]
    trivial

/-- The only job is one that the lease covers. -/
theorem ampleFor_of_first {t next : @Timed plainHost} {settings : Settings} {token : Token}
    {job : Job} (covers : Covers settings job) (minute : settings.leaseMs.toInt = 60000)
    (loaded : t.system.settings = settings) (soon : t.clock < 2 ^ 62)
    (first : (next.system.workers 0).job? = none ∨ (next.system.workers 0).job? = some job)
    (others : ∀ slot, next.system.workers (slot + 1) = .idle) :
    @AmpleFor plainHost token t next := by
  rintro (_ | slot) job' has own
  · rcases first with none | same
    · cases none.symm.trans has
    · cases same.symm.trans has
      exact ample_sample loaded covers minute soon
  · rw [others slot] at has
    cases has

/-- A step of a server whose only job is the sample submission. -/
theorem tended_sample {t next : @Timed plainHost} {label : TimedEvent}
    (loaded : t.system.settings = mixedSettings) (soon : t.clock < 2 ^ 62)
    (first : (next.system.workers 0).job? = none ∨ (next.system.workers 0).job? = some sampleJob)
    (others : ∀ slot, next.system.workers (slot + 1) = .idle)
    (heard : ∀ slot world, label = .act (.heartbeat slot world) → world.fault 0 = none) :
    @Tended plainHost ⟨"s1", 1⟩ ⟨t, label, next⟩ :=
  ⟨ampleFor_of_first covers_sample (by decide) loaded soon first others,
    fun slot world _ same _ _ => heard slot world same⟩

end Samples

set_option maxRecDepth 100000 in
/-- A program may run into its timeout, and a sweep finds its worker alive, on a server with a
problem that the lease does not cover. -/
theorem live_worker_keeps_lease_sample : letI := plainHost
    ∃ t : Timed, t.clock = 22500 ∧ (∃ job, ¬ Covers t.system.settings job) ∧
      ∃ row, t.system.queue.store.submissions.get "s1" = some row ∧ row.attempt = 1 ∧
        row.status.inFlight = true := by
  let host := plainHost
  have works : ∀ slot world, TimedEvent.act (.heartbeat 0 (worldAt 0)) =
      .act (.heartbeat slot world) → world.fault 0 = none := by
    rintro _ _ ⟨⟩
    rfl
  have run : timed.Run [] (startedAt mixedSettings) ∧ ∀ taken ∈ [], Tended ⟨"s1", 1⟩ taken :=
    ⟨.start ⟨⟨_, rfl⟩, fun _ => le_refl _⟩, fun _ inside => absurd inside List.not_mem_nil⟩
  have run := Run.extend run (.act (Step.insert (worldAt 0) sampleSubmission) rfl)
    (tended_sample rfl (by decide) (.inl rfl) (fun _ => rfl) nofun)
  have run := Run.extend run (.act (Step.claim 0 (worldAt 0) rfl) rfl)
    (tended_sample rfl (by decide) (.inr rfl) (fun _ => rfl) nofun)
  have run := Run.extend run (.act (Step.begin 0 rfl rfl) trivial)
    (tended_sample rfl (by decide) (.inr rfl) (fun _ => rfl) nofun)
  have run := Run.extend run (.act (Step.call 0 rfl rfl (by exact .ok ())) trivial)
    (tended_sample rfl (by decide) (.inr rfl) (fun _ => rfl) nofun)
  have run := Run.extend run (.act (Step.call 0 rfl rfl (by exact .ok ())) trivial)
    (tended_sample rfl (by decide) (.inr rfl) (fun _ => rfl) nofun)
  have run := Run.extend run (.act (Step.call 0 rfl rfl (by exact ())) trivial)
    (tended_sample rfl (by decide) (.inr rfl) (fun _ => rfl) nofun)
  have run := Run.extend run (.act (Step.heartbeat 0 (worldAt 0) rfl rfl rfl rfl) rfl)
    (tended_sample rfl (by decide) (.inr rfl) (fun _ => rfl) works)
  have run := Run.extend run (.act (Step.beatFetch 0 (worldAt 0) rfl rfl) rfl)
    (tended_sample rfl (by decide) (.inr rfl) (fun _ => rfl) nofun)
  have run := Run.extend run (.act (Step.beatPublish 0 rfl rfl) trivial)
    (tended_sample rfl (by decide) (.inr rfl) (fun _ => rfl) nofun)
  have run := Run.extend run (.wait 22500 (patient_of_first
    (Timed.waits_judging rfl rfl ⟨_, _, rfl⟩ rfl sample_guard) fun _ => rfl))
    (tended_sample rfl (by decide) (.inr rfl) (fun _ => rfl) nofun)
  have run := Run.extend run (.act (Step.sweep (worldAt 22500) rfl) rfl)
    (tended_sample rfl (by decide) (.inr rfl) (fun _ => rfl) nofun)
  obtain ⟨row, found, own⟩ := (live_worker_keeps_lease run.1 run.2).2.1 0 sampleJob rfl rfl rfl
  have attempt : some row.attempt = some 1 :=
    (congrArg (Option.map Row.attempt) found).symm.trans (by decide)
  refine ⟨_, rfl, ⟨_, slow_uncovered⟩, row, found, own ?_⟩
  rw [Option.some.inj attempt]
  decide

set_option maxRecDepth 100000 in
/-- The sweeper ends a submission as `IE` while its worker is still at its current attempt. -/
theorem live_worker_loses_lease : letI := plainHost
    ∃ steps t, timed.Run steps t ∧ ∃ taken ∈ steps, ∃ world,
      taken.label = .act (.sweep world) ∧ (taken.before.system.workers 0).job? = some sampleJob ∧
        (taken.before.system.queue.store.submissions.get "s1").map
          (fun row => (row.status, row.attempt)) = some (.running, 1) ∧
        (taken.after.system.queue.store.submissions.get "s1").map
          (fun row => (row.status, row.verdict)) = some (.done, some "IE") := by
  let host := plainHost
  have run : timed.Run [] (startedAt slowSettings) := .start ⟨⟨_, rfl⟩, fun _ => le_refl _⟩
  have run := run.next (.act (Step.insert (worldAt 0) sampleSubmission) rfl)
  have run := run.next (.act (Step.claim 0 (worldAt 0) rfl) rfl)
  have run := run.next (.act (Step.begin 0 rfl rfl) trivial)
  have run := run.next (.act (Step.call 0 rfl rfl (by exact .ok ())) trivial)
  have run := run.next (.act (Step.call 0 rfl rfl (by exact .ok ())) trivial)
  have run := run.next (.act (Step.call 0 rfl rfl (by exact ())) trivial)
  have run := run.next (.act (Step.heartbeat 0 (worldAt 0) rfl rfl rfl rfl) rfl)
  have run := run.next (.act (Step.beatFetch 0 (worldAt 0) rfl rfl) rfl)
  have run := run.next (.act (Step.beatPublish 0 rfl rfl) trivial)
  have run := run.next (.wait 60001 (patient_of_first
    (Timed.waits_judging rfl rfl ⟨_, _, rfl⟩ rfl (slow_guard _ rfl)) fun _ => rfl))
  have run := run.next (.act (Step.sweep (worldAt 60001) rfl) rfl)
  exact ⟨_, _, run, _, List.mem_cons_self, _, rfl, rfl, by decide, by decide⟩

/-- A call at a given time, on a store that fails. -/
def brokenAt (now : Int64) : World := ⟨now, "s1", fun _ => some (.sqlite "database is locked")⟩

theorem compile_guard :
    55500 ≤ (sampleJudge.compileSpec rust { argv := ["rustc", "main.rs"] }).limits.guard := by
  decide

theorem run_guard : 4501 ≤ (sampleJudge.runSpec rust
    (requestFor { sampleJob with language := "rust" } sampleProblem)).limits.guard := by
  rw [guard_rust]
  decide

/-- A lease of a minute also covers a submission in Rust. -/
theorem covers_rust : Covers sampleSettings { sampleJob with language := "rust" } where
  positive := by decide
  compile lang step known compiles := by
    obtain rfl : rust = lang := Option.some.inj known
    show ((40000 + 500 + 15000 : Nat) : Int) ≤ sampleSettings.leaseMs.toInt
    decide
  run lang problem known found := by
    obtain rfl : rust = lang := Option.some.inj known
    obtain rfl : sampleProblem = problem := Option.some.inj found
    rw [show sampleSettings.judge = sampleJudge from rfl, guard_rust]
    decide

set_option maxRecDepth 100000 in
/-- Heartbeats that the store refuses do not renew a lease, which covers every command. -/
theorem unheard_worker_loses_lease : letI := plainHost
    ∃ steps t, timed.Run steps t ∧
      (∀ taken ∈ steps, AmpleFor ⟨"s1", 1⟩ taken.before taken.after) ∧
      (t.system.workers 0).job? = some { sampleJob with language := "rust" } ∧
      (t.system.queue.store.submissions.get "s1").map
        (fun row => (row.status, row.verdict)) = some (.done, some "IE") := by
  let host := plainHost
  have minute : sampleSettings.leaseMs.toInt = 60000 := by decide
  have run : timed.Run [] (startedAt sampleSettings) ∧
      ∀ taken ∈ ([] : List (Transition Timed TimedEvent)),
        AmpleFor ⟨"s1", 1⟩ taken.before taken.after :=
    ⟨.start ⟨⟨_, rfl⟩, fun _ => le_refl _⟩, fun _ inside => absurd inside List.not_mem_nil⟩
  have run := Run.extend run 
    (.act (Step.insert (worldAt 0) { sampleSubmission with language := "rust" }) rfl)
    (ampleFor_of_first covers_rust minute rfl (by decide) (.inl rfl) fun _ => rfl)
  have run := Run.extend run (.act (Step.claim 0 (worldAt 0) rfl) rfl)
    (ampleFor_of_first covers_rust minute rfl (by decide) (.inr rfl) fun _ => rfl)
  have run := Run.extend run (.act (Step.begin 0 rfl rfl) trivial)
    (ampleFor_of_first covers_rust minute rfl (by decide) (.inr rfl) fun _ => rfl)
  have run := Run.extend run (.act (Step.call 0 rfl rfl (by exact .ok ())) trivial)
    (ampleFor_of_first covers_rust minute rfl (by decide) (.inr rfl) fun _ => rfl)
  have run := Run.extend run (.act (Step.call 0 rfl rfl (by exact .ok ())) trivial)
    (ampleFor_of_first covers_rust minute rfl (by decide) (.inr rfl) fun _ => rfl)
  have run := Run.extend run (.act (Step.call 0 rfl rfl (by exact ())) trivial)
    (ampleFor_of_first covers_rust minute rfl (by decide) (.inr rfl) fun _ => rfl)
  have run := Run.extend run (.act (Step.heartbeat 0 (brokenAt 0) rfl rfl rfl rfl) rfl)
    (ampleFor_of_first covers_rust minute rfl (by decide) (.inr rfl) fun _ => rfl)
  have run := Run.extend run (.wait 55500 (patient_of_first
    (Timed.waits_judging rfl rfl ⟨_, _, rfl⟩ rfl compile_guard) fun _ => rfl))
    (ampleFor_of_first covers_rust minute rfl (by decide) (.inr rfl) fun _ => rfl)
  have run := Run.extend run (.act (Step.call 0 rfl rfl
    (by exact .ok ⟨.ok, [], [], 10, 20, 3000⟩)) trivial)
    (ampleFor_of_first covers_rust minute rfl (by decide) (.inr rfl) fun _ => rfl)
  have run := Run.extend run (.act (Step.call 0 rfl rfl (by exact ())) trivial)
    (ampleFor_of_first covers_rust minute rfl (by decide) (.inr rfl) fun _ => rfl)
  have run := Run.extend run (.act (Step.heartbeat 0 (brokenAt 55500) rfl rfl rfl rfl) rfl)
    (ampleFor_of_first covers_rust minute rfl (by decide) (.inr rfl) fun _ => rfl)
  have run := Run.extend run (.wait 4501 (patient_of_first
    (Timed.waits_judging rfl rfl ⟨_, _, rfl⟩ rfl run_guard) fun _ => rfl))
    (ampleFor_of_first covers_rust minute rfl (by decide) (.inr rfl) fun _ => rfl)
  have run := Run.extend run (.act (Step.sweep (worldAt 60001) rfl) rfl)
    (ampleFor_of_first covers_rust minute rfl (by decide) (.inr rfl) fun _ => rfl)
  exact ⟨_, _, run.1, run.2, rfl, by decide⟩

/-- A lease so long that adding it to the clock wraps after 808 milliseconds. -/
def endlessSettings : Settings := { sampleSettings with leaseSeconds := 9223372036854775 }

theorem covers_endless : Covers endlessSettings sampleJob where
  positive := by decide
  compile lang step known compiles := by
    obtain rfl : python = lang := Option.some.inj known
    cases compiles
  run lang problem known found := by
    obtain rfl : python = lang := Option.some.inj known
    obtain rfl : sampleProblem = problem := Option.some.inj found
    rw [show endlessSettings.judge = sampleJudge from rfl, guard_python]
    decide

/-- A lease that wraps has expired when it is taken, although it covers every command. -/
theorem wrapped_lease_lost : letI := plainHost
    ∃ steps t, timed.Run steps t ∧
      (∀ taken ∈ steps, Covers taken.before.system.settings sampleJob) ∧
      (t.system.workers 0).job? = some sampleJob ∧
      (t.system.queue.store.submissions.get "s1").map
        (fun row => (row.status, row.verdict)) = some (.done, some "IE") := by
  let host := plainHost
  have run : timed.Run [] { startedAt endlessSettings with clock := 1000 } ∧
      ∀ taken ∈ ([] : List (Transition Timed TimedEvent)),
        Covers taken.before.system.settings sampleJob :=
    ⟨.start ⟨⟨_, rfl⟩, fun _ => Nat.zero_le _⟩, fun _ inside => absurd inside List.not_mem_nil⟩
  have run := Run.extend run (.act (Step.insert (worldAt 1000) sampleSubmission) rfl) covers_endless
  have run := Run.extend run (.act (Step.claim 0 (worldAt 1000) rfl) rfl) covers_endless
  have run := Run.extend run (.act (Step.sweep (worldAt 1000) rfl) rfl) covers_endless
  exact ⟨_, _, run.1, run.2, rfl, by decide⟩

end Codexec.Server
