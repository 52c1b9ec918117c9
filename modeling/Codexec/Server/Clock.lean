/-
**The server with a clock.**

Time passes only while every worker is idle or waits for a command in its sandbox, and no longer
than the timeout that `exec` puts around that command (`Timed.Patient`); every other action takes no
time. A call on the store reads the clock.
-/

import Codexec.Server.System
import Codexec.Judge.Progress
import Codexec.Judge.Isolate

namespace Codexec.Server

open Codexec Codexec.Library Machine Program

section Server

variable [Host]

/-- The reading of the clock in a call on the store. -/
def Event.reads (now : Int64) : Event → Prop
  | .insert world _ => world.now = now
  | .claim _ world => world.now = now
  | .abandon _ world => world.now = now
  | .heartbeat _ world => world.now = now
  | .beatFetch _ world => world.now = now
  | .store _ world => world.now = now
  | .report _ world => world.now = now
  | .sweep world => world.now = now
  | .read _ world => world.now = now
  | .restart _ world => world.now = now
  | _ => True

/-- The worker whose judging run starts or goes on. -/
def Event.runs : Event → Option Nat
  | .begin slot => some slot
  | .call slot => some slot
  | _ => none

structure Timed where
  system : System
  /-- `now_ms` -/
  clock : Nat
  /-- When the judging run of a worker made its last call. -/
  since : Nat → Nat

/-- The judging run waits for a command. -/
def Judging.Executing (run : Judging) (spec : ExecSpec) : Prop :=
  ∃ stdin next, run.rest = .call (.exec spec stdin) next

namespace Timed

variable (self : Timed)

/-- The lease, as claims and heartbeats add it. -/
def lease : Int := self.system.settings.leaseMs.toInt

/-- So much time may pass for a worker. -/
def waits (ms slot : Nat) : Phase → Prop
  | .idle => True
  | .judging run => run.channel = [] ∧ run.beat = .idle ∧ ∃ spec, run.Executing spec ∧
      self.clock + ms ≤ self.since slot + spec.limits.guard
  | _ => False

theorem waits_judging {t : Timed} {ms slot : Nat} {run : Judging} {spec : ExecSpec}
    (empty : run.channel = []) (resting : run.beat = .idle) (executing : run.Executing spec)
    (now : t.clock = t.since slot) (short : ms ≤ spec.limits.guard) :
    t.waits ms slot (.judging run) := by
  refine ⟨empty, resting, spec, executing, ?_⟩
  rw [now]
  exact Nat.add_le_add_left short _

/-- So much time may pass. -/
def Patient (ms : Nat) : Prop := ∀ slot, self.waits ms slot (self.system.workers slot)

/-- After an action. -/
def acted (event : Event) (after : System) : Timed where
  system := after
  clock := self.clock
  since := match event.runs with
    | some slot => Function.update self.since slot self.clock
    | none => self.since

end Timed

inductive TimedEvent
  | wait (ms : Nat)
  | act (event : Event)

inductive TimedStep : Timed → TimedEvent → Timed → Prop
  | wait {t : Timed} (ms : Nat) (patient : t.Patient ms) :
      TimedStep t (.wait ms) { t with clock := t.clock + ms }
  | act {t : Timed} {event : Event} {after : System} (step : Step t.system event after)
      (reads : event.reads (Int64.ofNat t.clock)) : TimedStep t (.act event) (t.acted event after)

theorem TimedStep.of_act {t next : Timed} {event : Event} (step : TimedStep t (.act event) next) :
    ∃ after, Step t.system event after ∧ event.reads (Int64.ofNat t.clock) ∧
      next = t.acted event after := by
  cases step with
  | act step reads => exact ⟨_, step, reads, rfl⟩

/-- The server with a clock, from an empty database. -/
def timed : Machine Timed TimedEvent where
  start t := system.start t.system ∧ ∀ slot, t.since slot ≤ t.clock
  step := TimedStep

/-- A run with a clock is a run. -/
theorem reachable_of_timed {t : Timed} (reachable : timed.Reachable t) :
    system.Reachable t.system := by
  obtain ⟨steps, run⟩ := reachable
  induction run with
  | start initial => exact ⟨[], .start initial.1⟩
  | next _ step ih =>
    cases step with
    | wait _ _ => exact ih
    | act step _ =>
      obtain ⟨taken, seen⟩ := ih
      exact ⟨_, seen.next step⟩

/-! ### The stage of a judging run -/

/-- What a judging run has reported and executed last. -/
def Judging.stage (run : Judging) : Stage :=
  run.transcript.foldl (fun stage exchange => stage.step exchange.1 exchange.2) .quiet

omit [Host] in
theorem after_reporting (judge : Judge) (lang : Language) (req : JudgeRequest) (stage : Stage)
    (transcript : List (Exchange Call.Answer)) :
    (judge.reporting lang req).after stage transcript =
      transcript.foldl (fun stage exchange => stage.step exchange.1 exchange.2) stage := by
  induction transcript generalizing stage with
  | nil => rfl
  | cons _ _ ih => exact ih _

theorem Judging.stage_answered {run : Judging} {request : Call}
    {next : Call.Answer request → JudgeM (Except JudgeError JudgeResult)}
    (calls : run.rest = .call request next) (answer : Call.Answer request) :
    (run.answered calls answer).stage = run.stage.step request answer :=
  List.foldl_append

/-- **A judging run goes on as the monitor says**, in its stage; without its language it is over. -/
theorem Judging.obeys (run : Judging) :
    (∃ e, run.rest = .pure (.error e)) ∨ ∃ lang,
      run.judge.languages.get run.job.language = some lang ∧
        Obeys (run.judge.reporting lang (requestFor run.job run.problem)) Judge.Reported run.stage
          run.rest := by
  cases known : run.judge.languages.get run.job.language with
  | none =>
    left
    have follows := run.follows
    rw [Judge.judge_of_unknown _ _ _ known] at follows
    exact ⟨_, follows.of_pure.2⟩
  | some lang =>
    right
    refine ⟨lang, rfl, ?_⟩
    have known : run.judge.languages.get (requestFor run.job run.problem).language = some lang :=
      known
    have left := ((run.judge.judge_reports known).of_follows run.follows).2
    rw [after_reporting] at left
    exact left

end Server

end Codexec.Server
