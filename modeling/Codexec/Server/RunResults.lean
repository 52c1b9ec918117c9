/-
**A run is answered by the judge.**

`runServer` is the run lane with the requests and the workers around it: `create_run` draws an id, a
worker pops a job and calls `handle_run`, which judges it call by call and completes it.

* `InStep` — the jobs of the workers are those that the lane counts as held, each once, the accepted
  jobs are those that `create_run` made for the accepted requests, and an outcome is that of a
  judging run.
* `run_answered` — so what `get_run` tells about a request is where its job stands, and in the end
  what the judge returned for that request.
* `polls_go_forward` — a client that polls sees QUEUED, RUNNING, DONE and 404, in this order, and the
  same record as long as it sees the same one of these.
-/

import Codexec.Server.Catalogue

namespace Codexec.Server

open Codexec Codexec.Library Program Machine

section RunServer

variable [Host]

/-- A judging run of `handle_run`. -/
structure RunJudging (judge : Judge) where
  job : RunJob
  transcript : List (Exchange Call.Answer)
  rest : JudgeM (Except JudgeError JudgeResult)
  follows : Follows (judge.judge (requestOfRun job) false) transcript rest

namespace RunJudging

variable {judge : Judge}

def begin (judge : Judge) (job : RunJob) : RunJudging judge where
  job := job
  transcript := []
  rest := judge.judge (requestOfRun job) false
  follows := .refl _

/-- The next call is answered. -/
def answered (self : RunJudging judge) {request : Call}
    {next : Call.Answer request → JudgeM (Except JudgeError JudgeResult)}
    (calls : self.rest = .call request next) (answer : Call.Answer request) : RunJudging judge where
  job := self.job
  transcript := self.transcript ++ [⟨request, answer⟩]
  rest := next answer
  follows := (calls ▸ self.follows).snoc answer

end RunJudging

/-- The lane, the workers that judge runs, and the accepted requests with their ids. -/
structure RunServer (judge : Judge) where
  lane : Lane
  workers : Nat → Option (RunJudging judge)
  asked : List (String × CreateRun)

/-- What happens next. -/
inductive RunEvent
  | create (body : CreateRun) (newId : String) (createdAtMs : Int64)
  | pop (slot : Nat)
  | call (slot : Nat)
  | complete (slot : Nat)
  | prune (clock : String → Nat)
  | pass (later : Nat)

namespace RunServer

variable {judge : Judge} (self : RunServer judge)

def setWorker (slot : Nat) (worker : Option (RunJudging judge)) : RunServer judge :=
  { self with workers := Function.update self.workers slot worker }

@[simp] theorem setWorker_self (slot : Nat) (worker : Option (RunJudging judge)) :
    (self.setWorker slot worker).workers slot = worker := Function.update_self ..

theorem setWorker_ne {slot slot' : Nat} (apart : slot' ≠ slot) (worker : Option (RunJudging judge)) :
    (self.setWorker slot worker).workers slot' = self.workers slot' := Function.update_of_ne apart ..

/-- A worker is the one that was set, or another one. -/
theorem worker_cases {slot slot' : Nat} {worker : Option (RunJudging judge)} {run : RunJudging judge}
    (here : (self.setWorker slot worker).workers slot' = some run) :
    (slot' = slot ∧ worker = some run) ∨ (slot' ≠ slot ∧ self.workers slot' = some run) := by
  by_cases same : slot' = slot
  · rw [same, setWorker_self] at here
    exact .inl ⟨same, here⟩
  · rw [setWorker_ne _ same] at here
    exact .inr ⟨same, here⟩

/-- The job that an accepted request adds. -/
def jobOf (made : Except ApiError RunJob) : Except ApiError (Accepted RunRecord) → List RunJob
  | .ok reply => (made.toOption.map fun job => { job with id := reply.body.id }).toList
  | .error _ => []

/-- The request, if it is accepted. -/
def told (body : CreateRun) : Except ApiError (Accepted RunRecord) → List (String × CreateRun)
  | .ok reply => [(reply.body.id, body)]
  | .error _ => []

/-- A request to `create_run`. -/
def create (settings : Settings) (maxSourceBytes : Nat) (body : CreateRun) (newId : String)
    (createdAtMs : Int64) : RunServer judge :=
  let (reply, runs) :=
    createRun settings maxSourceBytes body newId createdAtMs self.lane.now self.lane.runs
  { self with
    lane :=
      { self.lane with
        runs := runs
        accepted := self.lane.accepted ++ jobOf (newRun settings maxSourceBytes body) reply }
    asked := self.asked ++ told body reply }

end RunServer

/-- One atomic action. -/
inductive RunStep (settings : Settings) (maxSourceBytes : Nat) :
    RunServer settings.judge → RunEvent → RunServer settings.judge → Prop
  /-- The id is a new one. -/
  | create {s : RunServer settings.judge} (body : CreateRun) (newId : String) (createdAtMs : Int64)
      (fresh : newId ∉ Lane.ids s.lane.accepted) :
      RunStep settings maxSourceBytes s (.create body newId createdAtMs)
        (s.create settings maxSourceBytes body newId createdAtMs)
  /-- An idle worker asks for a job, and `handle_run` begins with it. -/
  | pop {s : RunServer settings.judge} {lane : Lane} (slot : Nat) (idle : s.workers slot = none)
      (pops : Lane.Step s.lane .pop lane) :
      RunStep settings maxSourceBytes s (.pop slot)
        ({ s with lane := lane }.setWorker slot
          (s.lane.runs.pop.1.map (RunJudging.begin settings.judge)))
  /-- The judging run makes its next call and gets an answer. -/
  | call {s : RunServer settings.judge} (slot : Nat) {run : RunJudging settings.judge}
      {request : Call} {next : Call.Answer request → JudgeM (Except JudgeError JudgeResult)}
      (here : s.workers slot = some run) (calls : run.rest = .call request next)
      (answer : Call.Answer request) :
      RunStep settings maxSourceBytes s (.call slot)
        (s.setWorker slot (some (run.answered calls answer)))
  /-- `judge` has returned. -/
  | complete {s : RunServer settings.judge} {lane : Lane} (slot : Nat)
      {run : RunJudging settings.judge} {returned : Except JudgeError JudgeResult}
      (here : s.workers slot = some run) (done : run.rest = .pure returned)
      (completes : Lane.Step s.lane (.complete run.job (returned.mapError errorText)) lane) :
      RunStep settings maxSourceBytes s (.complete slot)
        ({ s with lane := lane }.setWorker slot none)
  | prune {s : RunServer settings.judge} {lane : Lane} (clock : String → Nat)
      (prunes : Lane.Step s.lane (.prune clock) lane) :
      RunStep settings maxSourceBytes s (.prune clock) { s with lane := lane }
  | pass {s : RunServer settings.judge} {lane : Lane} (later : Nat)
      (passes : Lane.Step s.lane (.pass later) lane) :
      RunStep settings maxSourceBytes s (.pass later) { s with lane := lane }

/-- The runs of one process, from its start. -/
def runServer (settings : Settings) (maxSourceBytes capacity ttl : Nat) :
    Machine (RunServer settings.judge) RunEvent where
  start s := ∃ now, s = ⟨⟨.new capacity ttl, now, [], [], [], []⟩, fun _ => none, []⟩
  step := RunStep settings maxSourceBytes

/-! ### What is kept -/

/-- The outcome is what judging returned for the job. -/
def JudgedRun (judge : Judge) (job : RunJob) (outcome : Except String JudgeResult) : Prop :=
  ∃ transcript returned, Follows (judge.judge (requestOfRun job) false) transcript (.pure returned) ∧
    outcome = returned.mapError errorText

/-- The job was made for the request, and has the id that the client was told. -/
def MadeFor (settings : Settings) (maxSourceBytes : Nat) (request : String × CreateRun)
    (job : RunJob) : Prop :=
  job.id = request.1 ∧ Site.Asked settings maxSourceBytes request.2 job

/-- The lane, the workers and the requests are in step. -/
structure InStep (settings : Settings) (maxSourceBytes : Nat) (s : RunServer settings.judge) :
    Prop where
  lane : s.lane.Consistent
  busy : ∀ slot run, s.workers slot = some run → run.job ∈ s.lane.held
  alone : ∀ slot slot' run run', s.workers slot = some run → s.workers slot' = some run' →
    run'.job.id = run.job.id → slot' = slot
  served : ∀ job ∈ s.lane.held, ∃ slot run, s.workers slot = some run ∧ run.job = job
  judged : ∀ job outcome, (job, outcome) ∈ s.lane.ended → JudgedRun settings.judge job outcome
  made : List.Forall₂ (MadeFor settings maxSourceBytes) s.asked s.lane.accepted

variable {settings : Settings} {maxSourceBytes : Nat} {s s' : RunServer settings.judge}

/-- **A request is refused, and changes nothing, or its job goes to the end of the queue.** -/
theorem RunServer.create_cases (s : RunServer settings.judge) (maxSourceBytes : Nat)
    (body : CreateRun) (newId : String) (createdAtMs : Int64) :
    s.create settings maxSourceBytes body newId createdAtMs = s ∨
      ∃ job, newRun settings maxSourceBytes body = .ok job ∧
        s.lane.runs.queue.length < s.lane.runs.capacity ∧
        s.create settings maxSourceBytes body newId createdAtMs =
          { s with
            lane :=
              { s.lane with
                runs :=
                  { s.lane.runs with
                    records := s.lane.runs.records.put
                      ⟨newId, .queued, none, none, createdAtMs, s.lane.now⟩
                    queue := s.lane.runs.queue ++ [{ job with id := newId }] }
                accepted := s.lane.accepted ++ [{ job with id := newId }] }
            asked := s.asked ++ [(newId, body)] } := by
  unfold RunServer.create createRun
  cases made : newRun settings maxSourceBytes body with
  | error e =>
    left
    simp [RunServer.jobOf, RunServer.told]
  | ok job =>
    by_cases room : s.lane.runs.queue.length < s.lane.runs.capacity
    · right
      refine ⟨job, rfl, room, ?_⟩
      simp only [RunStore.submit_of_room _ room, RunServer.jobOf, RunServer.told, Except.toOption,
        Option.map_some, Option.toList_some]
    · left
      simp [RunStore.submit_of_full _ (Nat.not_lt.mp room), RunServer.jobOf, RunServer.told]

namespace InStep

variable (kept : InStep settings maxSourceBytes s)

include kept

/-- A new request. -/
theorem created (body : CreateRun) {newId : String} (createdAtMs : Int64)
    (fresh : newId ∉ Lane.ids s.lane.accepted) :
    InStep settings maxSourceBytes (s.create settings maxSourceBytes body newId createdAtMs) := by
  rcases s.create_cases maxSourceBytes body newId createdAtMs with
    same | ⟨job, made, room, same⟩
  · rw [same]
    exact kept
  · rw [same]
    refine ⟨kept.lane.submitted job fresh room, kept.busy, kept.alone, kept.served, kept.judged, ?_⟩
    exact List.rel_append kept.made (.cons ⟨rfl, job, made, rfl⟩ .nil)

/-- **A worker pops a job**, and begins to judge it. -/
theorem popped {lane : Lane} {slot : Nat} (idle : s.workers slot = none)
    (pops : Lane.Step s.lane .pop lane) :
    InStep settings maxSourceBytes
      ({ s with lane := lane }.setWorker slot
        (s.lane.runs.pop.1.map (RunJudging.begin settings.judge))) := by
  have consistent := kept.lane.step pops
  cases pops
  cases first : s.lane.runs.queue with
  | nil =>
    have nothing : s.lane.runs.pop = (none, s.lane.runs) := by simp only [RunStore.pop, first]
    simp only [nothing, Option.map_none, Option.toList_none, List.append_nil,
      RunServer.setWorker] at consistent ⊢
    rw [Function.update_eq_self_iff.mpr idle.symm]
    exact kept
  | cons job queue =>
    have queued : job.id ∈ Lane.ids s.lane.runs.queue := by simp [Lane.ids, first]
    have unheld := kept.lane.not_held queued
    have popped : s.lane.runs.pop.1 = some job := by simp only [RunStore.pop, first]
    simp only [popped, Option.map_some, Option.toList_some] at consistent ⊢
    have other : ∀ slot' run, s.workers slot' = some run → run.job.id ≠ job.id := by
      intro slot' run here same
      exact unheld (same ▸ List.mem_map_of_mem (kept.busy slot' run here))
    refine ⟨consistent, ?_, ?_, ?_, kept.judged, kept.made⟩
    · intro slot' run here
      rcases RunServer.worker_cases _ here with ⟨-, new⟩ | ⟨-, here⟩
      · cases new
        exact List.mem_append_right _ (List.mem_singleton_self _)
      · exact List.mem_append_left _ (kept.busy slot' run here)
    · intro slot' slot'' run run' here here' same
      rcases RunServer.worker_cases _ here with ⟨at', new⟩ | ⟨-, here⟩ <;>
        rcases RunServer.worker_cases _ here' with ⟨at'', new'⟩ | ⟨-, here'⟩
      · exact at''.trans at'.symm
      · cases new
        exact absurd same (other slot'' run' here')
      · cases new'
        exact absurd same.symm (other slot' run here)
      · exact kept.alone slot' slot'' run run' here here' same
    · intro held inside
      rcases List.mem_append.mp inside with inside | inside
      · obtain ⟨slot', run, here, same⟩ := kept.served held inside
        have apart : slot' ≠ slot := by
          rintro rfl
          rw [idle] at here
          cases here
        exact ⟨slot', run, (RunServer.setWorker_ne _ apart _).trans here, same⟩
      · obtain rfl := List.mem_singleton.mp inside
        exact ⟨slot, _, RunServer.setWorker_self _ _ _, rfl⟩

/-- A worker goes on with its run. -/
theorem called {slot : Nat} {run run' : RunJudging settings.judge}
    (here : s.workers slot = some run) (same : run'.job = run.job) :
    InStep settings maxSourceBytes (s.setWorker slot (some run')) := by
  have before : ∀ slot' other, (s.setWorker slot (some run')).workers slot' = some other →
      ∃ old, s.workers slot' = some old ∧ other.job = old.job := by
    intro slot' other found
    rcases RunServer.worker_cases _ found with ⟨rfl, new⟩ | ⟨-, found⟩
    · cases new
      exact ⟨run, here, same⟩
    · exact ⟨other, found, rfl⟩
  refine ⟨kept.lane, ?_, ?_, ?_, kept.judged, kept.made⟩
  · intro slot' other found
    obtain ⟨old, found', same'⟩ := before slot' other found
    rw [same']
    exact kept.busy slot' old found'
  · intro slot' slot'' one two found found' same'
    obtain ⟨old, found, own⟩ := before slot' one found
    obtain ⟨old', found', own'⟩ := before slot'' two found'
    rw [own, own'] at same'
    exact kept.alone slot' slot'' old old' found found' same'
  · intro job inside
    obtain ⟨slot', old, found, own⟩ := kept.served job inside
    by_cases at' : slot' = slot
    · subst at'
      rw [here] at found
      cases found
      exact ⟨slot', run', RunServer.setWorker_self _ _ _, same.trans own⟩
    · exact ⟨slot', old, (RunServer.setWorker_ne _ at' _).trans found, own⟩

/-- **A worker completes its job** with what judging it returned. -/
theorem completed {lane : Lane} {slot : Nat} {run : RunJudging settings.judge}
    {returned : Except JudgeError JudgeResult} (here : s.workers slot = some run)
    (done : run.rest = .pure returned)
    (completes : Lane.Step s.lane (.complete run.job (returned.mapError errorText)) lane) :
    InStep settings maxSourceBytes ({ s with lane := lane }.setWorker slot none) := by
  have consistent := kept.lane.step completes
  cases completes with
  | @complete before after _ _ holds =>
    have split : s.lane.held.Perm (run.job :: (before ++ after)) := holds ▸ List.perm_middle
    have distinct : (Lane.ids s.lane.held).Nodup :=
      (List.nodup_append.mp (List.nodup_append.mp kept.lane.apart).1).1
    have gone := (List.nodup_cons.mp ((split.map RunJob.id).nodup_iff.mp distinct)).1
    refine ⟨consistent, ?_, ?_, ?_, ?_, kept.made⟩
    · intro slot' other found
      rcases RunServer.worker_cases _ found with ⟨-, new⟩ | ⟨apart, found⟩
      · cases new
      · rcases List.mem_cons.mp (split.mem_iff.mp (kept.busy slot' other found)) with same | inside
        · exact absurd (kept.alone slot slot' run other here found (congrArg RunJob.id same)) apart
        · exact inside
    · intro slot' slot'' one two found found'
      rcases RunServer.worker_cases _ found with ⟨-, new⟩ | ⟨-, found⟩
      · cases new
      · rcases RunServer.worker_cases _ found' with ⟨-, new⟩ | ⟨-, found'⟩
        · cases new
        · exact kept.alone slot' slot'' one two found found'
    · intro job inside
      obtain ⟨slot', other, found, own⟩ := kept.served job (split.mem_iff.mpr (.tail _ inside))
      have apart : slot' ≠ slot := by
        rintro rfl
        rw [here] at found
        cases found
        exact gone (own ▸ List.mem_map_of_mem inside)
      exact ⟨slot', other, (RunServer.setWorker_ne _ apart _).trans found, own⟩
    · intro job outcome inside
      rcases List.mem_append.mp inside with inside | inside
      · exact kept.judged job outcome inside
      · cases List.mem_singleton.mp inside
        exact ⟨run.transcript, returned, done ▸ run.follows, rfl⟩

/-- **Every step keeps them in step.** -/
theorem step {event : RunEvent} (step : RunStep settings maxSourceBytes s event s') :
    InStep settings maxSourceBytes s' := by
  cases step with
  | create body newId createdAtMs fresh => exact kept.created body createdAtMs fresh
  | pop slot idle pops => exact kept.popped idle pops
  | call slot here calls answer => exact kept.called here rfl
  | complete slot here done completes => exact kept.completed here done completes
  | prune clock prunes =>
    have consistent := kept.lane.step prunes
    cases prunes
    exact ⟨consistent, kept.busy, kept.alone, kept.served, kept.judged, kept.made⟩
  | pass later passes =>
    have consistent := kept.lane.step passes
    cases passes
    exact ⟨consistent, kept.busy, kept.alone, kept.served, kept.judged, kept.made⟩

end InStep

theorem inStep_invariant {capacity ttl : Nat} :
    (runServer settings maxSourceBytes capacity ttl).Invariant (InStep settings maxSourceBytes) where
  start _ initial := by
    obtain ⟨now, rfl⟩ := initial
    exact ⟨.started capacity ttl now, nofun, nofun, nofun, nofun, .nil⟩
  step _ _ _ kept step := kept.step step

/-! ### The lane of the server -/

/-- **A step of the server is one of the lane**, or leaves it as it is. -/
theorem RunStep.lane {event : RunEvent} (step : RunStep settings maxSourceBytes s event s') :
    s'.lane = s.lane ∨ ∃ label, Lane.Step s.lane label s'.lane := by
  cases step with
  | create body newId createdAtMs fresh =>
    rcases s.create_cases maxSourceBytes body newId createdAtMs with same | ⟨job, -, room, same⟩
    · exact .inl (congrArg RunServer.lane same)
    · have submits := Lane.Step.submit job newId createdAtMs fresh
      rw [RunStore.submit_of_room _ room] at submits
      exact .inr ⟨.submit job newId createdAtMs, (congrArg RunServer.lane same).symm ▸ submits⟩
  | pop slot idle pops => exact .inr ⟨_, pops⟩
  | call slot here calls answer => exact .inl rfl
  | complete slot here done completes => exact .inr ⟨_, completes⟩
  | prune clock prunes => exact .inr ⟨_, prunes⟩
  | pass later passes => exact .inr ⟨_, passes⟩

theorem runServer_refines (capacity ttl : Nat) :
    Refinement (runServer settings maxSourceBytes capacity ttl) (lane capacity ttl) RunServer.lane
      fun _ => True where
  start _ initial := by
    obtain ⟨now, rfl⟩ := initial
    exact ⟨now, rfl⟩
  step _ _ _ _ step := step.lane

/-- How far a status is. -/
def Status.stage : Status → Nat
  | .queued => 0
  | .done => 2
  | _ => 1

/-- How far the answer to a poll is: QUEUED, RUNNING, DONE, gone. -/
def stage : Except ApiError RunRecord → Nat
  | .ok record => record.status.stage
  | .error _ => 3

/-- The second of two answers is the first one, or is further. -/
def Further (first second : Except ApiError RunRecord) : Prop :=
  second = first ∨ stage first < stage second

omit [Host] in
theorem Further.trans {first second third : Except ApiError RunRecord}
    (one : Further first second) (two : Further second third) : Further first third := by
  rcases one with rfl | one
  · exact two
  · rcases two with rfl | two
    · exact .inr one
    · exact .inr (one.trans two)

omit [Host] in
theorem getRun_of_get {runs : RunStore} {id : String} {record : RunRecord}
    (found : runs.get id = some record) : getRun runs id = .ok record := by
  rw [getRun, found]
  rfl

omit [Host] in
theorem getRun_of_none {runs : RunStore} {id : String} (gone : runs.get id = none) :
    getRun runs id = .error (.notFound "run (results expire)") := by
  rw [getRun, gone]
  rfl

omit [Host] in
/-- **The record of an accepted job goes forward.** -/
theorem Lane.Consistent.forward {s s' : Lane} {event : LaneEvent} (kept : s.Consistent)
    (step : Lane.Step s event s') {id : String} (accepted : id ∈ Lane.ids s.accepted) :
    Further (getRun s.runs id) (getRun s'.runs id) := by
  have unchanged : ∀ {runs : RunStore}, runs.get id = s.runs.get id →
      Further (getRun s.runs id) (getRun runs id) := by
    intro runs same
    left
    rw [getRun, getRun, same]
  cases step with
  | submit job newId createdAtMs fresh =>
    by_cases room : s.runs.queue.length < s.runs.capacity
    · rw [RunStore.submit_of_room _ room]
      have other : newId ≠ id := fun same => fresh (same ▸ accepted)
      exact unchanged ((Table.get_put _ _ _).trans (if_neg other))
    · rw [RunStore.submit_of_full _ (Nat.not_lt.mp room)]
      exact unchanged rfl
  | pop =>
    cases first : s.runs.queue with
    | nil =>
      simp only [RunStore.pop, first]
      exact unchanged rfl
    | cons job queue =>
      simp only [RunStore.pop, first]
      by_cases same : id = job.id
      · obtain ⟨record, found, blank⟩ := kept.waiting job (first ▸ List.mem_cons_self)
        have begun := RunStore.get_modify_self RunStore.begun_id found
        right
        show stage _ < stage (getRun (s.runs.modify job.id RunStore.begun RunStore.begun_id) id)
        rw [same, getRun_of_get found, getRun_of_get begun, stage, blank.status]
        exact Nat.zero_lt_one
      · exact unchanged (RunStore.get_modify_ne RunStore.begun_id same)
  | complete job outcome holds =>
    by_cases same : id = job.id
    · obtain ⟨record, found, blank⟩ := kept.running job (holds ▸ List.mem_append_cons_self)
      have completed := RunStore.get_modify_self (RunStore.completed_id outcome) found
      right
      show stage _ < stage (getRun (s.runs.modify job.id _ (RunStore.completed_id outcome)) id)
      rw [same, getRun_of_get found, getRun_of_get completed, stage, stage, blank.status,
        (blank.completed outcome).status]
      exact Nat.lt_succ_self 1
    · exact unchanged (RunStore.get_modify_ne (RunStore.completed_id outcome) same)
  | prune clock later between =>
    have pruned : (s.runs.prune clock).2.get id = (s.runs.get id).filter (s.runs.kept clock) :=
      RunStore.get_prune clock
    cases found : s.runs.get id with
    | none =>
      rw [found] at pruned
      exact unchanged (pruned.trans found.symm)
    | some record =>
      rw [found, Option.filter_some] at pruned
      by_cases stays : s.runs.kept clock record = true
      · rw [if_pos stays] at pruned
        exact unchanged (pruned.trans found.symm)
      · rw [if_neg stays] at pruned
        right
        rw [getRun_of_get found, getRun_of_none pruned]
        show record.status.stage < 3
        cases record.status <;> decide
  | pass later onward => exact unchanged rfl

/-! ### What a client is told -/

/-- Where the job of an accepted request stands, and what a poll tells about it. -/
inductive Stands (s : RunServer settings.judge) (job : RunJob) : Prop
  | queued {record : RunRecord} (waits : job ∈ s.lane.runs.queue)
      (told : getRun s.lane.runs job.id = .ok record) (blank : record.Blank .queued)
  /-- One worker has it. -/
  | running {slot : Nat} {run : RunJudging settings.judge} {record : RunRecord}
      (here : s.workers slot = some run) (own : run.job = job)
      (alone : ∀ slot' run', s.workers slot' = some run' → run'.job.id = job.id → slot' = slot)
      (told : getRun s.lane.runs job.id = .ok record) (blank : record.Blank .running)
  | done {outcome : Except String JudgeResult} {record : RunRecord}
      (judged : JudgedRun settings.judge job outcome)
      (told : getRun s.lane.runs job.id = .ok record) (tells : record.Tells outcome)
  /-- It was pruned. -/
  | expired {outcome : Except String JudgeResult} (judged : JudgedRun settings.judge job outcome)
      (told : getRun s.lane.runs job.id = .error (.notFound "run (results expire)"))

namespace InStep

variable (kept : InStep settings maxSourceBytes s)

include kept

theorem stands {job : RunJob} (accepted : job ∈ s.lane.accepted) : Stands s job := by
  have inside : job ∈ s.lane.held ++ s.lane.ended.map Prod.fst ∨ job ∈ s.lane.runs.queue := by
    rw [kept.lane.order, List.mem_append, kept.lane.parted.mem_iff] at accepted
    exact accepted
  rw [List.mem_append, or_assoc] at inside
  rcases inside with held | ended | waits
  · obtain ⟨slot, run, here, rfl⟩ := kept.served job held
    obtain ⟨record, found, blank⟩ := kept.lane.running run.job held
    exact .running here rfl (fun slot' run' here' => kept.alone slot slot' run run' here here')
      (getRun_of_get found) blank
  · obtain ⟨⟨job, outcome⟩, member, rfl⟩ := List.mem_map.mp ended
    have judged := kept.judged job outcome member
    cases found : s.lane.runs.get job.id with
    | none => exact .expired judged (getRun_of_none found)
    | some record =>
      have apart := kept.lane.apart
      rw [List.nodup_append, List.nodup_append] at apart
      have own : job.id ∈ Lane.ids (s.lane.ended.map Prod.fst) := List.mem_map_of_mem ended
      have unqueued : job.id ∉ Lane.ids s.lane.runs.queue := fun queued =>
        apart.2.2 job.id (List.mem_append_right _ own) job.id queued rfl
      have unheld : job.id ∉ Lane.ids s.lane.held := fun held =>
        apart.1.2.2 job.id held job.id own rfl
      obtain ⟨job', outcome', member', same, tells⟩ :=
        kept.lane.finished job.id record found unqueued unheld
      have distinct : (Lane.ids (s.lane.ended.map Prod.fst)).Nodup := apart.1.2.1
      have one : job' = job :=
        List.inj_on_of_nodup_map distinct (List.mem_map_of_mem (f := Prod.fst) member') ended same
      exact .done (kept.judged job outcome' (one ▸ member')) (getRun_of_get found) tells
  · obtain ⟨record, found, blank⟩ := kept.lane.waiting job waits
    exact .queued waits (getRun_of_get found) blank

/-- An accepted request has its job. -/
theorem job_of_asked {id : String} {body : CreateRun} (asked : (id, body) ∈ s.asked) :
    ∃ job ∈ s.lane.accepted, MadeFor settings maxSourceBytes (id, body) job := by
  have made := kept.made
  generalize s.asked = requests, s.lane.accepted = jobs at made asked
  induction made with
  | nil => exact absurd asked List.not_mem_nil
  | cons first _ ih =>
    rcases List.mem_cons.mp asked with rfl | asked
    · exact ⟨_, List.mem_cons_self, first⟩
    · obtain ⟨job, inside, made⟩ := ih asked
      exact ⟨job, List.mem_cons_of_mem _ inside, made⟩

/-- The ids of the requests are those of the jobs. -/
theorem asked_ids : s.asked.map Prod.fst = Lane.ids s.lane.accepted := by
  have made := kept.made
  generalize s.asked = asked, s.lane.accepted = accepted at made
  induction made with
  | nil => rfl
  | cons first _ ih => rw [List.map_cons, Lane.ids, List.map_cons, ih, first.1]

/-- Any other id is unknown. -/
theorem unasked {id : String} (unknown : id ∉ s.asked.map Prod.fst) :
    getRun s.lane.runs id = .error (.notFound "run (results expire)") := by
  rw [kept.asked_ids, kept.lane.accepted_iff] at unknown
  cases found : s.lane.runs.get id with
  | none => exact getRun_of_none found
  | some record =>
    rcases kept.lane.status_cases found with
      ⟨queued, -⟩ | ⟨held, -⟩ | ⟨job, outcome, member, rfl, -⟩
    · exact absurd (.inr (.inr queued)) unknown
    · exact absurd (.inl held) unknown
    · have ended : job ∈ s.lane.ended.map Prod.fst := List.mem_map.mpr ⟨_, member, rfl⟩
      exact absurd (.inr (.inl (List.mem_map_of_mem ended))) unknown

/-- **The answer to a poll goes forward** in a step. -/
theorem forward {event : RunEvent} (step : RunStep settings maxSourceBytes s event s') {id : String}
    (asked : id ∈ s.asked.map Prod.fst) : Further (getRun s.lane.runs id) (getRun s'.lane.runs id) := by
  rcases step.lane with same | ⟨label, moves⟩
  · left
    rw [same]
  · rw [kept.asked_ids] at asked
    exact kept.lane.forward moves asked

end InStep

/-- Accepted requests stay. -/
theorem RunStep.asked {event : RunEvent} (step : RunStep settings maxSourceBytes s event s') :
    s.asked <+: s'.asked := by
  cases step with
  | create => exact List.prefix_append _ _
  | _ => exact List.prefix_rfl

/-- **Every accepted request is answered by the judge**: its job waits, or one worker judges it, or
`get_run` tells what `judge` returned for the request, as long as it is kept. Other ids are unknown. -/
theorem run_answered {capacity ttl : Nat} {steps : List (Transition (RunServer settings.judge) RunEvent)}
    (run : (runServer settings maxSourceBytes capacity ttl).Run steps s) :
    (∀ id body, (id, body) ∈ s.asked →
      ∃ job, job.id = id ∧ Site.Asked settings maxSourceBytes body job ∧ Stands s job) ∧
    (s.asked.map Prod.fst).Nodup ∧
    ∀ id, id ∉ s.asked.map Prod.fst →
      getRun s.lane.runs id = .error (.notFound "run (results expire)") := by
  have kept := inStep_invariant.of_run run
  refine ⟨?_, kept.asked_ids ▸ kept.lane.once, fun id => kept.unasked⟩
  intro id body asked
  obtain ⟨job, accepted, own, made⟩ := kept.job_of_asked asked
  exact ⟨job, own, made, kept.stands accepted⟩

/-- **Polls go forward**: between two polls for an accepted run the answer is the same, or it goes
from QUEUED to RUNNING to DONE to 404. -/
theorem polls_go_forward {capacity ttl : Nat}
    {steps : List (Transition (RunServer settings.judge) RunEvent)}
    (run : (runServer settings maxSourceBytes capacity ttl).Run steps s)
    {taken : Transition (RunServer settings.judge) RunEvent} (member : taken ∈ steps) {id : String}
    (asked : id ∈ taken.before.asked.map Prod.fst) :
    Further (getRun taken.before.lane.runs id) (getRun s.lane.runs id) := by
  have before := inStep_invariant.of_transition run member
  have reached : id ∈ taken.after.asked.map Prod.fst ∧
      Further (getRun taken.before.lane.runs id) (getRun taken.after.lane.runs id) :=
    ⟨(before.2.asked.map Prod.fst).subset asked, before.1.forward before.2 asked⟩
  have stable : ∀ (state : RunServer settings.judge) label after,
      InStep settings maxSourceBytes state →
      (runServer settings maxSourceBytes capacity ttl).step state label after →
      (id ∈ state.asked.map Prod.fst ∧
        Further (getRun taken.before.lane.runs id) (getRun state.lane.runs id)) →
      id ∈ after.asked.map Prod.fst ∧
        Further (getRun taken.before.lane.runs id) (getRun after.lane.runs id) := by
    rintro state label after kept step ⟨inside, forward⟩
    exact ⟨(step.asked.map Prod.fst).subset inside, forward.trans (kept.forward step inside)⟩
  exact (run.persists inStep_invariant stable member reached).2

end RunServer

/-! ### A run whose sandbox cannot be had -/

/-- The server, before its first request. -/
def idleRunServer : @RunServer plainHost sampledSettings.judge :=
  letI := plainHost
  ⟨⟨.new 256 600, 0, [], [], [], []⟩, fun _ => none, []⟩

set_option maxRecDepth 10000 in
/-- A run is accepted, popped, judged without a box, and completed. -/
theorem run_failed : letI := plainHost
    ∃ (steps : List (Transition (RunServer sampledSettings.judge) RunEvent))
      (queued popped s : RunServer sampledSettings.judge),
      (runServer sampledSettings 100 256 600).Run steps s ∧
        ⟨queued, .pop 0, popped⟩ ∈ steps ∧ queued.asked = [("r", samplesRun)] ∧
        s.asked = [("r", samplesRun)] ∧
        getRun s.lane.runs "r" =
          .ok ⟨"r", .done, none, some "sandbox backend failed: isolate: no box", 5, 0⟩ := by
  let host := plainHost
  have run : (runServer sampledSettings 100 256 600).Run [] idleRunServer := .start ⟨0, rfl⟩
  have run := run.next (RunStep.create samplesRun "r" 5 List.not_mem_nil)
  have run := run.next (RunStep.pop 0 rfl .pop)
  have run := run.next (RunStep.call 0 rfl rfl (by exact .error (.backend "isolate: no box")))
  have run := run.next (RunStep.complete 0 rfl rfl (@Lane.Step.complete _ [] [] _ _ rfl))
  exact ⟨_, _, _, _, run, .tail _ (.tail _ (.head _)), rfl, rfl, rfl⟩

theorem run_answered_sample : letI := plainHost
    ∃ s : RunServer sampledSettings.judge, ∃ job, job.id = "r" ∧
      Site.Asked sampledSettings 100 samplesRun job ∧ Stands s job ∧
      getRun s.lane.runs "x" = .error (.notFound "run (results expire)") := by
  let host := plainHost
  obtain ⟨steps, -, -, s, run, -, -, asked, -⟩ := run_failed
  obtain ⟨answered, -, unknown⟩ := run_answered run
  obtain ⟨job, own, made, stands⟩ := answered "r" samplesRun (asked ▸ List.mem_cons_self)
  exact ⟨s, job, own, made, stands, unknown "x" (by rw [asked]; decide)⟩

theorem polls_go_forward_sample : letI := plainHost
    ∃ queued s : RunServer sampledSettings.judge, queued.asked = [("r", samplesRun)] ∧
      Further (getRun queued.lane.runs "r") (getRun s.lane.runs "r") := by
  let host := plainHost
  obtain ⟨steps, queued, _, s, run, taken, asked, -⟩ := run_failed
  exact ⟨queued, s, asked, polls_go_forward run taken (by rw [asked]; decide)⟩

end Codexec.Server
