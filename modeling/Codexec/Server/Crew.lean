/-
**The workers and the boxes.**

`spawn_workers` starts a worker for each box of the pool. A worker judges one program after the
other; what a judging run asks of the sandbox takes several steps of the pool, and the steps of all
workers are interleaved in any order (`Crew.Step`). Nobody cancels a worker.

A judging run asks for a box at most once and gives it back (`judge_boxing`, a coarser view of
`judge_custody`), so each worker that has a call of its own is waiting for an answer to it
(`Worker.Fits`), and there are no other calls (`Crew.Kept`, kept by every step).
-/

import Codexec.Judge.Lifecycle
import Codexec.Judge.Pool
import Codexec.Library.Table

namespace Codexec.Server

open Codexec Codexec.Library
open Codexec.Library.Program (Obeys)

/-! ### One box for each run -/

/-- The monitor that only sees whether a run has a box. -/
def boxing : Protocol Call Call.Answer Bool where
  permits
    | held, .acquire => held = false
    | held, _ => held = true
  step
    | _, .acquire, .ok () => true
    | _, .acquire, .error _ => false
    | _, .release, _ => false
    | held, _, _ => held

/-- The run has a box. -/
def boxed : Custody → Bool
  | .opened => true
  | .loaded => true
  | .failed _ => true
  | _ => false

theorem boxing_permits {lang : Language} {req : JudgeRequest} (stage : Custody) (request : Call)
    (permitted : Custody.permits lang req stage request) :
    boxing.permits (boxed stage) request := by
  cases stage <;> cases request <;> first | exact permitted.elim | rfl

theorem boxing_step {lang : Language} {req : JudgeRequest} (stage : Custody) (request : Call)
    (answer : Call.Answer request) (permitted : Custody.permits lang req stage request) :
    boxing.step (boxed stage) request answer = boxed (stage.step request answer) := by
  cases stage <;> cases request <;> first | exact permitted.elim | rfl | (cases answer <;> rfl)

/-- It ends without a box. -/
def Unboxed (held : Bool) (_ : Except JudgeError JudgeResult) : Prop := held = false

/-- **A judging run asks for a box at most once**, uses it only while it has it, and ends without
one. -/
theorem judge_boxing [Host] (self : Judge) (req : JudgeRequest) (progress : Bool) :
    Obeys boxing Unboxed false (self.judge req progress) := by
  cases known : self.languages.get req.language with
  | none =>
    rw [self.judge_of_unknown req progress known]
    exact .pure rfl
  | some lang =>
    refine (self.judge_custody known).through boxed boxing_permits boxing_step ?_
    intro stage value returns
    cases stage <;> first | exact returns.elim | rfl

/-! ### The crew -/

/-- What a worker is doing. -/
inductive Worker
  /-- Between two jobs. -/
  | idle
  /-- What is left of a judging run, and its call of `acquire` until the box is gone. -/
  | judging (left : JudgeM (Except JudgeError JudgeResult)) (call : Option Nat)

namespace Worker

def call : Worker → Option Nat
  | .idle => none
  | .judging _ call => call

/-- It has a box, or is about to get one or to give it back. -/
def busy (worker : Worker) : Bool := worker.call.isSome

end Worker

/-- `spawn_workers`. -/
def spawnWorkers (count : UInt32) : List Worker := List.replicate count.toNat .idle

structure Crew where
  pool : Pool
  workers : List Worker

/-- What a worker does, and what that is to the pool. -/
structure CrewEvent where
  worker : Nat
  pool : Option PoolEvent

/-- What happens to the pool while a run waits for the answer to a request. -/
inductive Awaits (call : Nat) : Call → PoolEvent → Prop
  | grant : Awaits call .acquire (.grant call)
  | pop : Awaits call .acquire (.pop call)
  | panic : Awaits call .acquire (.panic call)
  | cleaned : Awaits call .acquire (.cleaned call)
  /-- `init` has failed. -/
  | undo : Awaits call .acquire (.drop call)
  | release : Awaits call .release (.release call)
  | released : Awaits call .release (.released call)
  /-- `cleanup` has failed in `release`. -/
  | drop : Awaits call .release (.drop call)

/-- The step of the pool that ends a request, the answer, and whose box it is from then on. -/
inductive Yields (call : Nat) :
    (request : Call) → PoolEvent → Call.Answer request → Option Nat → Prop
  | acquired : Yields call .acquire (.initialised call) (.ok ()) (some call)
  | refused (e : SandboxError) : Yields call .acquire (.free call) (.error e) none
  | written (name : String) (contents : Bytes) (answer : Except SandboxError Unit) :
      Yields call (.writeFile name contents) (.write call) answer (some call)
  | executed (spec : ExecSpec) (stdin : Bytes) (answer : Except SandboxError ExecOutcome) :
      Yields call (.exec spec stdin) (.exec call spec) answer (some call)
  | released (answer : Except SandboxError Unit) : Yields call .release (.free call) answer none

namespace Crew

variable [Host]

/-- One step of one worker. -/
inductive Step (self : Judge) : Crew → CrewEvent → Crew → Prop
  /-- A run or a submission is judged. -/
  | begins {s : Crew} {worker : Nat} (req : JudgeRequest) (progress : Bool)
      (here : s.workers[worker]? = some .idle) :
      Step self s ⟨worker, none⟩
        { s with workers := s.workers.set worker (.judging (self.judge req progress) none) }
  /-- The run calls `acquire`. -/
  | asks {s : Crew} {pool : Pool} {worker : Nat} {next : Call.Answer .acquire → JudgeM _}
      (here : s.workers[worker]? = some (.judging (.call .acquire next) none))
      (step : Pool.Step s.pool .acquire pool) :
      Step self s ⟨worker, some .acquire⟩
        ⟨pool, s.workers.set worker (.judging (.call .acquire next) (some s.pool.calls.length))⟩
  /-- The sandbox gets on with what it was asked for. -/
  | awaits {s : Crew} {pool : Pool} {worker call : Nat} {request : Call} {event : PoolEvent}
      {next : Call.Answer request → JudgeM _}
      (here : s.workers[worker]? = some (.judging (.call request next) (some call)))
      (within : Awaits call request event) (step : Pool.Step s.pool event pool) :
      Step self s ⟨worker, some event⟩ { s with pool := pool }
  /-- The sandbox has answered. -/
  | answered {s : Crew} {pool : Pool} {worker call : Nat} {request : Call} {event : PoolEvent}
      {next : Call.Answer request → JudgeM _} {answer : Call.Answer request} {after : Option Nat}
      (here : s.workers[worker]? = some (.judging (.call request next) (some call)))
      (yields : Yields call request event answer after) (step : Pool.Step s.pool event pool) :
      Step self s ⟨worker, some event⟩ ⟨pool, s.workers.set worker (.judging (next answer) after)⟩
  /-- A progress event is sent. -/
  | tells {s : Crew} {worker : Nat} {call : Option Nat} {event : Progress}
      {next : Call.Answer (.notify event) → JudgeM _}
      (here : s.workers[worker]? = some (.judging (.call (.notify event) next) call)) :
      Step self s ⟨worker, none⟩
        { s with workers := s.workers.set worker (.judging (next ()) call) }
  /-- The run has returned. -/
  | returns {s : Crew} {worker : Nat} {call : Option Nat} {value : Except JudgeError JudgeResult}
      (here : s.workers[worker]? = some (.judging (.pure value) call)) :
      Step self s ⟨worker, none⟩ { s with workers := s.workers.set worker .idle }

end Crew

/-- A new pool and so many workers. -/
def crew [Host] (cfg : IsolateConfig) (self : Judge) (count : UInt32) : Machine Crew CrewEvent where
  start s := (pool cfg).start s.pool ∧ s.workers = spawnWorkers count
  step := Crew.Step self

/-! ### What is kept -/

/-- The call is not over. -/
def unfinished : Holder → Bool
  | .gone => false
  | .panicked => false
  | _ => true

/-- Where a call of `acquire` can be while its run waits for the answer to a request. -/
def within : Call → Holder → Bool
  | .acquire, .waiting => true
  | .acquire, .granted => true
  | .acquire, .cleaning _ => true
  | .acquire, .initialising _ => true
  | .acquire, .dropped => true
  | .release, .inUse _ => true
  | .release, .releasing _ => true
  | .release, .dropped => true
  | .writeFile _ _, .inUse _ => true
  | .exec _ _, .inUse _ => true
  | .notify _, .inUse _ => true
  | _, _ => false

theorem unfinished_of_within {request : Call} {holder : Holder}
    (inside : within request holder = true) : unfinished holder = true := by
  cases holder <;> first | rfl | (cases request <;> cases inside)

/-- **Whoever has a box may ask for anything but another one.** -/
theorem within_inUse {request : Call} (box : IsolateBox) (permitted : boxing.permits true request) :
    within request (.inUse box) = true := by
  cases request <;> first | rfl | cases permitted

/-- A run that has no call of its own has no box; any other waits for an answer, and its call is
where that answer comes from. -/
def Placed (calls : List Holder) (held : Bool) (left : JudgeM (Except JudgeError JudgeResult)) :
    Option Nat → Prop
  | none => held = false
  | some call => ∃ request next holder, left = .call request next ∧
      calls[call]? = some holder ∧ within request holder = true

/-- **A run that has a box is waiting for an answer**, whatever it does next. -/
theorem placed_inUse {calls : List Holder} {left : JudgeM (Except JudgeError JudgeResult)}
    {call : Nat} {box : IsolateBox} (obeys : Obeys boxing Unboxed true left)
    (here : calls[call]? = some (.inUse box)) : Placed calls true left (some call) := by
  cases left with
  | pure value => cases obeys.of_pure
  | call request next => exact ⟨request, next, _, rfl, here, within_inUse box obeys.of_call.1⟩

/-- What is left of a run keeps to the rules, and its call is where it says. -/
def Worker.Fits (calls : List Holder) : Worker → Prop
  | .idle => True
  | .judging left call => ∃ held, Obeys boxing Unboxed held left ∧ Placed calls held left call

theorem Worker.Fits.congr {calls calls' : List Holder} {worker : Worker} (fits : worker.Fits calls)
    (same : ∀ call, worker.call = some call → calls'[call]? = calls[call]?) :
    worker.Fits calls' := by
  cases worker with
  | idle => trivial
  | judging left call =>
    obtain ⟨held, obeys, placed⟩ := fits
    refine ⟨held, obeys, ?_⟩
    cases call with
    | none => exact placed
    | some call =>
      obtain ⟨request, next, holder, rfl, here, inside⟩ := placed
      exact ⟨request, next, holder, rfl, (same call rfl).trans here, inside⟩

/-- The call of a worker is one of the calls that are not over. -/
theorem Worker.Fits.unfinished {calls : List Holder} {worker : Worker} {call : Nat}
    (fits : worker.Fits calls) (mine : worker.call = some call) :
    ∃ holder, calls[call]? = some holder ∧ unfinished holder = true := by
  cases worker with
  | idle => cases mine
  | judging left own =>
    obtain ⟨held, obeys, placed⟩ := fits
    obtain rfl : own = some call := mine
    obtain ⟨request, next, holder, -, here, inside⟩ := placed
    exact ⟨holder, here, unfinished_of_within inside⟩

theorem Worker.Fits.call_lt {calls : List Holder} {worker : Worker} {call : Nat}
    (fits : worker.Fits calls) (mine : worker.call = some call) : call < calls.length := by
  obtain ⟨holder, here, -⟩ := fits.unfinished mine
  exact (List.getElem?_eq_some_iff.mp here).1

/-! ### The steps of a call -/

section Calls

variable {cfg : IsolateConfig} {pool pool' : Pool} {call : Nat} {request : Call} {event : PoolEvent}
  {holder : Holder}

/-- **While a run waits its call stays where the answer comes from.** -/
theorem Awaits.moves (awaits : Awaits call request event) (kept : pool.Exclusive cfg)
    (fits : cfg.Fits) (step : Pool.Step pool event pool') :
    ∃ old new, pool.calls[call]? = some old ∧ pool'.calls = pool.calls.set call new ∧
      unfinished old = true ∧ unfinished new = true ∧
      (within request old = true → within request new = true) := by
  cases awaits with
  | grant => cases step with | grant _ here _ => exact ⟨_, _, here, rfl, rfl, rfl, fun _ => rfl⟩
  | pop => cases step with | pop _ here _ => exact ⟨_, _, here, rfl, rfl, rfl, fun _ => rfl⟩
  | panic =>
    cases step with | panic _ here none => exact absurd none (kept.freeIds_ne_nil fits here)
  | cleaned => cases step with | cleaned _ here => exact ⟨_, _, here, rfl, rfl, rfl, fun _ => rfl⟩
  | undo =>
    cases step with
    | @drop old box _ here held =>
      refine ⟨old, _, here, rfl, ?_, rfl, fun _ => rfl⟩
      cases old <;> first | rfl | cases held
  | release => cases step with | release _ here => exact ⟨_, _, here, rfl, rfl, rfl, fun _ => rfl⟩
  | released => cases step with | released _ here => exact ⟨_, _, here, rfl, rfl, rfl, fun _ => rfl⟩
  | drop =>
    cases step with
    | @drop old box _ here held =>
      refine ⟨old, _, here, rfl, ?_, rfl, fun _ => rfl⟩
      cases old <;> first | rfl | cases held

/-- **With the answer the box is in use, or gone.** -/
theorem Yields.moves {answer : Call.Answer request} {after : Option Nat} {held : Bool}
    (yields : Yields call request event answer after) (permitted : boxing.permits held request)
    (step : Pool.Step pool event pool') :
    ∃ old new, pool.calls[call]? = some old ∧ pool'.calls = pool.calls.set call new ∧
      unfinished old = true ∧
      ((after = some call ∧ (∃ box, new = .inUse box) ∧ boxing.step held request answer = true) ∨
        (after = none ∧ new = .gone ∧ boxing.step held request answer = false)) := by
  cases yields with
  | acquired =>
    cases step with
    | initialised _ here => exact ⟨_, _, here, rfl, rfl, Or.inl ⟨rfl, ⟨_, rfl⟩, rfl⟩⟩
  | refused e =>
    cases step with
    | free _ here => exact ⟨_, _, here, rfl, rfl, Or.inr ⟨rfl, rfl, rfl⟩⟩
  | written name contents answer =>
    obtain rfl : held = true := permitted
    cases step with
    | write _ here => exact ⟨_, _, here, rfl, rfl, Or.inl ⟨rfl, ⟨_, rfl⟩, rfl⟩⟩
  | executed spec stdin answer =>
    obtain rfl : held = true := permitted
    cases step with
    | exec _ _ here => exact ⟨_, _, here, rfl, rfl, Or.inl ⟨rfl, ⟨_, rfl⟩, rfl⟩⟩
  | released answer =>
    cases step with
    | free _ here => exact ⟨_, _, here, rfl, rfl, Or.inr ⟨rfl, rfl, rfl⟩⟩

end Calls

namespace Crew

variable {cfg : IsolateConfig} {count : UInt32} {s s' : Crew} {index : Nat} {old new : Worker}
  {pool' : Pool}

/-- What is kept. -/
structure Kept (cfg : IsolateConfig) (count : UInt32) (s : Crew) : Prop where
  pool : s.pool.Exclusive cfg
  size : s.workers.length = count.toNat
  /-- Each worker has its own call. -/
  apart : ∀ (one two : Nat) (worker worker' : Worker) (call : Nat),
    s.workers[one]? = some worker → s.workers[two]? = some worker' →
    worker.call = some call → worker'.call = some call → one = two
  fit : ∀ (index : Nat) (worker : Worker),
    s.workers[index]? = some worker → worker.Fits s.pool.calls
  /-- No other calls are left. -/
  even : s.pool.calls.countP unfinished = s.workers.countP Worker.busy

namespace Kept

theorem started {self : Judge} [Host] (initial : (crew cfg self count).start s) :
    Kept cfg count s := by
  obtain ⟨⟨created, deeds, built⟩, idle⟩ := initial
  have none : s.pool.calls = [] := by
    by_cases zero : cfg.slots = 0
    · simp [IsolateSandbox.new, zero, bind, Except.bind] at built
    · cases created with
      | error e => simp [IsolateSandbox.new, zero, Except.mapError, bind, Except.bind] at built
      | ok done =>
        simp only [IsolateSandbox.new, zero, if_false] at built
        exact (congrArg Pool.calls (Except.ok.inj built)).symm
  have all (index : Nat) (worker : Worker) (here : s.workers[index]? = some worker) :
      worker = .idle := by
    rw [idle] at here
    exact (List.mem_replicate.mp (List.mem_of_getElem? here)).2
  refine ⟨Pool.Exclusive.started built, ?_, ?_, ?_, ?_⟩
  · rw [idle, spawnWorkers, List.length_replicate]
  · intro one two worker worker' call here here' mine
    rw [all one worker here] at mine
    cases mine
  · intro index worker here
    rw [all index worker here]
    trivial
  · rw [none, idle, spawnWorkers, List.countP_replicate]
    rfl

/-- **A worker that moves keeps what is kept**, if only its own call changes with it. -/
theorem moved (kept : Kept cfg count s) (here : s.workers[index]? = some old)
    (exclusive : pool'.Exclusive cfg)
    (others : ∀ call, old.call ≠ some call → call < s.pool.calls.length →
      pool'.calls[call]? = s.pool.calls[call]?)
    (own : ∀ call, new.call = some call → old.call = some call ∨ call = s.pool.calls.length)
    (fit : new.Fits pool'.calls)
    (even : pool'.calls.countP unfinished + old.busy.toNat =
      s.pool.calls.countP unfinished + new.busy.toNat) :
    Kept cfg count ⟨pool', s.workers.set index new⟩ := by
  have bound := (List.getElem?_eq_some_iff.mp here).1
  have alone : ∀ (other : Nat) (worker : Worker) (call : Nat), other ≠ index →
      s.workers[other]? = some worker → worker.call = some call → new.call ≠ some call := by
    intro other worker call different there mine taken
    rcases own call taken with same | fresh
    · exact different (kept.apart other index worker old call there here mine same)
    · exact absurd ((kept.fit other worker there).call_lt mine) (by omega)
  refine ⟨exclusive, by rw [List.length_set]; exact kept.size, ?_, ?_, ?_⟩
  · intro one two worker worker' call there there' mine mine'
    by_cases first : one = index
    · by_cases second : two = index
      · rw [first, second]
      · rw [first, List.getElem?_set_self bound] at there
        rw [List.getElem?_set_ne (Ne.symm second)] at there'
        cases there
        exact absurd mine (alone two worker' call second there' mine')
    · rw [List.getElem?_set_ne (Ne.symm first)] at there
      by_cases second : two = index
      · rw [second, List.getElem?_set_self bound] at there'
        cases there'
        exact absurd mine' (alone one worker call first there mine)
      · rw [List.getElem?_set_ne (Ne.symm second)] at there'
        exact kept.apart one two worker worker' call there there' mine mine'
  · intro other worker there
    by_cases same : other = index
    · rw [same, List.getElem?_set_self bound] at there
      cases there
      exact fit
    · rw [List.getElem?_set_ne (Ne.symm same)] at there
      have fits := kept.fit other worker there
      refine fits.congr fun call mine => others call (fun taken => same ?_) (fits.call_lt mine)
      exact kept.apart other index worker old call there here mine taken
  · have workers := Table.countP_set_add here Worker.busy new
    have before := kept.even
    show pool'.calls.countP unfinished = (s.workers.set index new).countP Worker.busy
    omega

/-- **Every step keeps what is kept.** -/
theorem step [Host] {self : Judge} {event : CrewEvent} (fits : cfg.Fits) (kept : Kept cfg count s)
    (step : Step self s event s') : Kept cfg count s' := by
  cases step with
  | begins req progress here =>
    exact kept.moved here kept.pool (fun _ _ _ => rfl) nofun
      ⟨false, judge_boxing self req progress, rfl⟩ rfl
  | @asks pool worker next here step =>
    obtain ⟨held, obeys, placed⟩ := kept.fit _ _ here
    cases step with
    | acquire =>
      refine kept.moved here kept.pool.asked ?_ ?_
        ⟨held, obeys, .acquire, next, .waiting, rfl, ?_, rfl⟩ ?_
      · exact fun call _ bound => List.getElem?_append_left bound
      · exact fun call mine => Or.inr (Option.some.inj mine).symm
      · exact List.getElem?_concat_length
      · rw [List.countP_append]
        rfl
  | @awaits pool worker call request event next here awaits step =>
    obtain ⟨held, obeys, request', next', holder, same, there, inside⟩ := kept.fit _ _ here
    cases same
    obtain ⟨old, new, there', moves, one, two, goes⟩ := awaits.moves kept.pool fits step
    obtain rfl : holder = old := Option.some.inj (there.symm.trans there')
    have bound := (List.getElem?_eq_some_iff.mp there).1
    have stays : s.workers.set worker (.judging (.call request next) (some call)) = s.workers := by
      obtain ⟨bound, same⟩ := List.getElem?_eq_some_iff.mp here
      rw [← same, List.set_getElem_self]
    have counted := Table.countP_set_add there unfinished new
    rw [one, two] at counted
    have after : Kept cfg count
        ⟨pool, s.workers.set worker (.judging (.call request next) (some call))⟩ := by
      refine kept.moved here (kept.pool.step fits step) ?_ (fun _ mine => Or.inl mine)
        ⟨held, obeys, request, next, new, rfl, ?_, goes inside⟩ ?_
      · intro other different _
        rw [moves, List.getElem?_set_ne fun same => different (congrArg some same)]
      · rw [moves, List.getElem?_set_self bound]
      · rw [moves]
        omega
    rw [stays] at after
    exact after
  | @answered pool worker call request event next answer after here yields step =>
    obtain ⟨held, obeys, request', next', holder, same, there, inside⟩ := kept.fit _ _ here
    cases same
    obtain ⟨permitted, later⟩ := obeys.of_call
    obtain ⟨old, new, there', moves, one, goes⟩ := yields.moves permitted step
    have bound := (List.getElem?_eq_some_iff.mp there).1
    have counted := Table.countP_set_add there' unfinished new
    have others : ∀ other, some call ≠ some other → other < s.pool.calls.length →
        pool.calls[other]? = s.pool.calls[other]? := by
      intro other different _
      rw [moves, List.getElem?_set_ne fun same => different (congrArg some same)]
    have goes' := later answer
    rcases goes with ⟨rfl, ⟨box, rfl⟩, holds⟩ | ⟨rfl, rfl, holds⟩
    · rw [holds] at goes'
      have now : pool.calls[call]? = some (.inUse box) := by
        rw [moves, List.getElem?_set_self bound]
      refine kept.moved here (kept.pool.step fits step) others (fun _ mine => Or.inl mine)
        ⟨true, goes', placed_inUse goes' now⟩ ?_
      rw [moves]
      rw [one] at counted
      exact counted
    · rw [holds] at goes'
      refine kept.moved here (kept.pool.step fits step) others nofun ⟨false, goes', rfl⟩ ?_
      rw [moves]
      rw [one] at counted
      exact counted
  | @tells worker call event next here =>
    obtain ⟨held, obeys, placed⟩ := kept.fit _ _ here
    obtain ⟨permitted, later⟩ := obeys.of_call
    obtain rfl : held = true := permitted
    cases call with
    | none => cases placed
    | some call =>
      obtain ⟨request, next', holder, same, there, inside⟩ := placed
      cases same
      refine kept.moved here kept.pool (fun _ _ _ => rfl) (fun _ mine => Or.inl mine)
        ⟨true, later (), ?_⟩ rfl
      cases holder with
      | inUse box => exact placed_inUse (later ()) there
      | _ => cases inside
  | @returns worker call value here =>
    obtain ⟨held, obeys, placed⟩ := kept.fit _ _ here
    cases call with
    | none => exact kept.moved here kept.pool (fun _ _ _ => rfl) nofun trivial rfl
    | some call =>
      obtain ⟨_, _, _, same, -⟩ := placed
      cases same

end Kept

end Crew

/-- What is kept holds in every run. -/
theorem crew_kept [Host] {cfg : IsolateConfig} (fits : cfg.Fits) (self : Judge) (count : UInt32) :
    (crew cfg self count).Invariant (Crew.Kept cfg count) where
  start _ initial := Crew.Kept.started initial
  step _ _ _ kept step := kept.step fits step

end Codexec.Server
