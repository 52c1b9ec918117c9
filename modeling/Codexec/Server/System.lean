/-
**The server.**

Workers, the sweeper, event streams and restarts, interleaved at every call on the store, on the
sandbox and on the hub. A worker is in one `Phase` of `handle_submission`; while it judges, the
judging run (a program over sandbox calls) and the heartbeat task take steps independently, and the
submission is stored only after both have finished. `Step` has one rule for each atomic action.

The last two fields of a state are its history: the settings that were loaded, and the results that
`judge` returned to workers.
-/

import Codexec.Server.Queue
import Codexec.Server.Hub
import Codexec.Judge.Problem
import Codexec.Judge.Trace

namespace Codexec.Server

open Codexec Codexec.Library Program

/-- `JUDGE_VERSION` -/
def judgeVersion : String := "codexec-judge/0.1.0"

/-- What a process loads when it starts. -/
structure Settings where
  judge : Judge
  problems : ProblemSet
  leaseSeconds : UInt64
  maxAttempts : UInt32

/-- `AppState::lease_ms`; the product wraps as in a release build. -/
def Settings.leaseMs (self : Settings) : Int64 := (self.leaseSeconds * 1000).toInt64

/-- The request of a worker. -/
def requestFor (job : Job) (problem : Problem) : JudgeRequest where
  language := job.language
  source := job.source
  tests := problem.tests
  timeLimitMs := problem.timeLimitMs
  memoryLimitKb := problem.memoryLimitKb
  comparer := problem.comparer
  stopOnFirstFailure := true
  captureOutput := false
  showFailedInput := problem.showFailedInput

/-- The heartbeat task. -/
inductive Beat
  | idle
  /-- Its progress was recorded; it reads the row. -/
  | fetching
  | publishing (sub : Submission)

section Server

variable [Host]

/-- A judging run of a worker, and its heartbeat. -/
structure Judging where
  job : Job
  judge : Judge
  problem : Problem
  /-- The exchanges so far. -/
  transcript : List (Exchange Call.Answer)
  /-- What is left of the run. -/
  rest : JudgeM (Except JudgeError JudgeResult)
  follows : Follows (judge.judge (requestFor job problem) true) transcript rest
  /-- Progress events that the heartbeat has not received yet. -/
  channel : List Progress
  beat : Beat

/-- Where a worker is. -/
inductive Phase
  /-- Between submissions. -/
  | idle
  /-- `handle_submission` was called. -/
  | claimed (job : Job)
  | judging (run : Judging)
  /-- The run and the heartbeat have ended. -/
  | storing (job : Job) (problem : Problem) (outcome : Except JudgeError JudgeResult)
  /-- About to read the row; `wrote` says whether this worker made it DONE. -/
  | reporting (job : Job) (wrote : Bool)
  | publishing (job : Job) (wrote : Bool) (sub : Submission)

/-- Where the sweeper is. -/
inductive Sweeper
  | idle
  /-- After a sweep that gave up these submissions. -/
  | swept (failed : List String)

/-- A result that `judge` returned to a worker. -/
structure Judgement where
  job : Job
  judge : Judge
  problem : Problem
  transcript : List (Exchange Call.Answer)
  result : JudgeResult
  follows : Follows (judge.judge (requestFor job problem) true) transcript (.pure (.ok result))

structure System where
  settings : Settings
  queue : Queue
  workers : Nat → Phase
  sweeper : Sweeper
  hub : Hub
  loaded : List Settings
  judged : List Judgement

/-! ### Actions -/

namespace Judging

/-- A run that starts. -/
def begin (judge : Judge) (job : Job) (problem : Problem) : Judging where
  job := job
  judge := judge
  problem := problem
  transcript := []
  rest := judge.judge (requestFor job problem) true
  follows := .refl _
  channel := []
  beat := .idle

/-- The progress events of a call. -/
def sent : Call → List Progress
  | .notify event => [event]
  | _ => []

/-- The next call of the run is answered. -/
def answered (self : Judging) {request : Call}
    {next : Call.Answer request → JudgeM (Except JudgeError JudgeResult)}
    (calls : self.rest = .call request next) (answer : Call.Answer request) : Judging :=
  { self with
    transcript := self.transcript ++ [⟨request, answer⟩]
    rest := next answer
    follows := Follows.snoc (calls ▸ self.follows) answer
    channel := self.channel ++ sent request }

/-- What the heartbeat records for an event. -/
def recorded : Progress → Status × Nat × Nat
  | .compiling => (.compiling, 0, 0)
  | .running done total => (.running, done, total)

end Judging

/-- The write of a worker that has judged. -/
def storeOp (settings : Settings) (world : World) (job : Job) (problem : Problem) :
    Except JudgeError JudgeResult → Op
  | .ok result => .finish world job.token problem.version judgeVersion result
  | .error (.unknownLanguage language) =>
    .failAttempt world job.token 0 ("language " ++ Host.debugStr language ++ " is not configured")
  | .error (.sandbox e) => .failAttempt world job.token settings.maxAttempts e.display

/-- The result that judging returned, for the history. -/
def judgements (run : Judging) : List Judgement :=
  match returns : run.rest with
  | .pure (.ok result) =>
    [⟨run.job, run.judge, run.problem, run.transcript, result, by
      rw [← returns]
      exact run.follows⟩]
  | _ => []

namespace System

variable (self : System)

def setWorker (slot : Nat) (phase : Phase) : System :=
  { self with workers := Function.update self.workers slot phase }

def perform (op : Op) : System := { self with queue := self.queue.perform op }

/-- Whether a call makes a submission done. -/
def ends (op : Op) (id : String) : Bool :=
  !self.queue.isDone id && (self.queue.perform op).isDone id

/-- A worker after its claim. -/
def afterClaim : Except StoreError (Option Job) → Phase
  | .ok (some job) => .claimed job
  | _ => .idle

/-- The heartbeat after its read. -/
def afterFetch : Except StoreError (Option Submission) → Beat
  | .ok (some sub) => .publishing sub
  | _ => .idle

/-- A worker after its last read. -/
def afterReport (job : Job) (wrote : Bool) : Except StoreError (Option Submission) → Phase
  | .ok (some sub) => .publishing job wrote sub
  | _ => .idle

/-- The submissions that a sweep gives up. -/
def gaveUp (world : World) : List String :=
  match (self.queue.store.sweep world self.settings.maxAttempts).1 with
  | .ok _ => (self.queue.store.submissions.rows.filter
      (hopeless world.now self.settings.maxAttempts)).map Row.id
  | .error _ => []

end System

/-- What happens next. -/
inductive Event
  | insert (world : World) (new : NewSubmission)
  | claim (slot : Nat) (world : World)
  | abandon (slot : Nat) (world : World)
  | begin (slot : Nat)
  | call (slot : Nat)
  | heartbeat (slot : Nat) (world : World)
  | beatFetch (slot : Nat) (world : World)
  | beatPublish (slot : Nat)
  | returned (slot : Nat)
  | store (slot : Nat) (world : World)
  | report (slot : Nat) (world : World)
  | publish (slot : Nat)
  | sweep (world : World)
  | prune
  | subscribe (id : String) (number : Nat)
  | read (number : Nat) (world : World)
  | poll (number : Nat)
  | hangUp (number : Nat)
  | restart (settings : Settings) (world : World)

/-- One atomic action. -/
inductive Step : System → Event → System → Prop
  /-- `create_submission` stores a submission. -/
  | insert {s : System} (world : World) (new : NewSubmission) :
      Step s (.insert world new) (s.perform (.insert world new))
  /-- An idle worker asks for a job. -/
  | claim {s : System} (slot : Nat) (world : World) (idle : s.workers slot = .idle) :
      Step s (.claim slot world) ((s.perform (.claimNext world s.settings.leaseMs)).setWorker slot
        (System.afterClaim (s.queue.store.claimNext world s.settings.leaseMs).1))
  /-- The problem no longer exists: `fail_permanently`, and `handle_submission` returns. -/
  | abandon {s : System} (slot : Nat) (world : World) {job : Job}
      (here : s.workers slot = .claimed job) (missing : s.settings.problems.get job.problem = none) :
      Step s (.abandon slot world)
        ((s.perform (.failAttempt world job.token 0 "problem no longer exists")).setWorker slot .idle)
  | begin {s : System} (slot : Nat) {job : Job} {problem : Problem}
      (here : s.workers slot = .claimed job)
      (found : s.settings.problems.get job.problem = some problem) :
      Step s (.begin slot)
        (s.setWorker slot (.judging (Judging.begin s.settings.judge job problem)))
  /-- The judging run makes its next call and gets an answer. -/
  | call {s : System} (slot : Nat) {run : Judging} {request : Call}
      {next : Call.Answer request → JudgeM (Except JudgeError JudgeResult)}
      (here : s.workers slot = .judging run) (calls : run.rest = .call request next)
      (answer : Call.Answer request) :
      Step s (.call slot) (s.setWorker slot (.judging (run.answered calls answer)))
  /-- The heartbeat receives an event and records it. -/
  | heartbeat {s : System} (slot : Nat) (world : World) {run : Judging} {event : Progress}
      {later : List Progress} {op : Op} (here : s.workers slot = .judging run)
      (resting : run.beat = .idle) (received : run.channel = event :: later)
      (writes : op = .progress world run.job.token (Judging.recorded event).1
        (Judging.recorded event).2.1 (Judging.recorded event).2.2 s.settings.leaseMs) :
      Step s (.heartbeat slot world) ((s.perform op).setWorker slot (.judging
        { run with
          channel := later
          beat := if op.applied s.queue.store then .fetching else .idle }))
  | beatFetch {s : System} (slot : Nat) (world : World) {run : Judging}
      (here : s.workers slot = .judging run) (reading : run.beat = .fetching) :
      Step s (.beatFetch slot world) (s.setWorker slot (.judging
        { run with beat := System.afterFetch (s.queue.store.get world run.job.id) }))
  | beatPublish {s : System} (slot : Nat) {run : Judging} {sub : Submission}
      (here : s.workers slot = .judging run) (ready : run.beat = .publishing sub) :
      Step s (.beatPublish slot)
        ({ s with hub := s.hub.publish sub }.setWorker slot (.judging { run with beat := .idle }))
  /-- `judge` has returned, the channel is closed and the heartbeat has drained it. -/
  | returned {s : System} (slot : Nat) {run : Judging} {outcome : Except JudgeError JudgeResult}
      (here : s.workers slot = .judging run) (done : run.rest = .pure outcome)
      (drained : run.channel = []) (resting : run.beat = .idle) :
      Step s (.returned slot)
        ({ s with judged := judgements run ++ s.judged }.setWorker slot
          (.storing run.job run.problem outcome))
  /-- `finish`, or `fail_attempt` from `fail` or `fail_permanently`. -/
  | store {s : System} (slot : Nat) (world : World) {job : Job} {problem : Problem}
      {outcome : Except JudgeError JudgeResult} {op : Op}
      (here : s.workers slot = .storing job problem outcome)
      (writes : op = storeOp s.settings world job problem outcome) :
      Step s (.store slot world)
        ((s.perform op).setWorker slot (.reporting job (s.ends op job.id)))
  | report {s : System} (slot : Nat) (world : World) {job : Job} {wrote : Bool}
      (here : s.workers slot = .reporting job wrote) :
      Step s (.report slot world) (s.setWorker slot
        (System.afterReport job wrote (s.queue.store.get world job.id)))
  | publish {s : System} (slot : Nat) {job : Job} {wrote : Bool} {sub : Submission}
      (here : s.workers slot = .publishing job wrote sub) :
      Step s (.publish slot) ({ s with hub := s.hub.publish sub }.setWorker slot .idle)
  /-- A tick of the sweeper starts with the store. -/
  | sweep {s : System} (world : World) (resting : s.sweeper = .idle) :
      Step s (.sweep world)
        { s.perform (.sweep world s.settings.maxAttempts) with sweeper := .swept (s.gaveUp world) }
  /-- It ends with the hub. -/
  | prune {s : System} {failed : List String} (swept : s.sweeper = .swept failed) :
      Step s .prune { s with sweeper := .idle, hub := s.hub.prune }
  | subscribe {s : System} (id : String) (number : Nat)
      (fresh : s.hub.streams.get number = none) :
      Step s (.subscribe id number) { s with hub := s.hub.subscribe id number fresh }
  | read {s : System} (number : Nat) (world : World) {stream : Stream}
      (found : s.hub.streams.get number = some stream) (waits : stream.phase = .subscribed) :
      Step s (.read number world)
        { s with hub := s.hub.opened number (s.queue.store.get world stream.id) }
  | poll {s : System} (number : Nat) {stream : Stream}
      (found : s.hub.streams.get number = some stream) :
      Step s (.poll number) { s with hub := s.hub.polled number stream }
  /-- The client goes away. -/
  | hangUp {s : System} (number : Nat) :
      Step s (.hangUp number) { s with hub := s.hub.hungUp number }
  /-- The process ends, and another one starts on the same database. -/
  | restart {s : System} (settings : Settings) (world : World) {n : Nat}
      (ready : (s.queue.store.requeueInflight world).1 = .ok n) :
      Step s (.restart settings world)
        { settings := settings
          queue := s.queue.perform (.requeueInflight world)
          workers := fun _ => .idle
          sweeper := .idle
          hub := .empty
          loaded := settings :: s.loaded
          judged := s.judged }

/-- The server, from an empty database. -/
def system : Machine System Event where
  start s := ∃ settings, s = ⟨settings, ⟨.empty, []⟩, fun _ => .idle, .idle, .empty, [settings], []⟩
  step := Step

end Server

/-! ### A small server -/

theorem sampleTest_loaded : LoadedTests [sampleTest "2\n"] :=
  ⟨by simp, by simp, by simp [sampleTest], by simp [sampleTest], by decide⟩

def sampleProblem : Problem where
  slug := "p"
  title := "P"
  difficulty := "easy"
  tags := []
  timeLimitMs := 1000
  memoryLimitKb := 262144
  comparer := .lines
  showFailedInput := false
  statement := ""
  tests := [sampleTest "2\n"]
  sampleNames := []
  version := "v1"
  loaded := sampleTest_loaded

def sampleSettings : Settings where
  judge := sampleJudge
  problems := ⟨[sampleProblem], List.nodup_singleton _⟩
  leaseSeconds := 60
  maxAttempts := 1

/-- Before the first step. -/
def started (settings : Settings) : @System plainHost :=
  letI := plainHost
  ⟨settings, ⟨.empty, []⟩, fun _ => .idle, .idle, .empty, [settings], []⟩

theorem run_started (settings : Settings) : (@system plainHost).Run [] (started settings) :=
  .start ⟨settings, rfl⟩

end Codexec.Server
