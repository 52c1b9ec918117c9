/-
**The two lanes of a worker.**

An iteration of `worker_loop` either handles a run or asks the store for a submission. `turns` is
what it did, over any contents of the run queue and any replies of `claim_next`; pauses are left
out. A worker never handles more than `RUN_BURST` runs without asking (`ran_atMost`). It should also
ask at most once between two runs while runs are waiting; a failed claim leaves the streak as it is,
so it is asked again (`lanes_fair_iff`).
-/

import Codexec.Server.Runs
import Codexec.Library.Stretch

namespace Codexec.Server

open Codexec Codexec.Library Stretch

/-- Runs served in a row before a waiting submission gets a turn. -/
def runBurst : UInt32 := 3

/-- What `claim_next` answers. -/
abbrev Reply : Type := Except StoreError (Option Job)

/-- What an iteration did. -/
inductive Turn
  | ran (job : RunJob)
  | asked (reply : Reply)

namespace Turn

def Ran : Turn → Prop
  | .ran _ => True
  | .asked _ => False

def Asked : Turn → Prop
  | .ran _ => False
  | .asked _ => True

instance : DecidablePred Asked
  | .ran _ => isFalse id
  | .asked _ => isTrue trivial

end Turn

/-- `run_streak` after an attempt to claim. -/
def afterReply (runStreak : UInt32) : Reply → UInt32
  | .ok (some _) => 0
  | .ok none => 0
  | .error _ => runStreak

/-- One iteration: `run_streak` after it, and what it did. -/
def iteration (runStreak : UInt32) (runs : RunStore) (reply : Reply) : UInt32 × Turn :=
  let preferSubmission := runStreak ≥ runBurst
  match if preferSubmission then none else runs.pop.1 with
  | some job => (runStreak + 1, .ran job)
  | none => (afterReply runStreak reply, .asked reply)

/-- A worker after some iterations. -/
structure WorkerLoop where
  runStreak : UInt32 := 0
  /-- Oldest first. -/
  turns : List Turn := []

namespace WorkerLoop

/-- The number of calls of `claim_next`. -/
def attempts (self : WorkerLoop) : Nat := self.turns.countP fun turn => turn.Asked

def next (self : WorkerLoop) (runs : RunStore) (reply : Reply) : WorkerLoop where
  runStreak := (iteration self.runStreak runs reply).1
  turns := self.turns ++ [(iteration self.runStreak runs reply).2]

end WorkerLoop

/-- `worker_loop`, for so many iterations. The queue is what each iteration finds, the replies are
those of each call of `claim_next`. -/
def workerLoop (queue : Nat → RunStore) (replies : Nat → Reply) : Nat → WorkerLoop
  | 0 => {}
  | n + 1 =>
    let before := workerLoop queue replies n
    before.next (queue n) (replies before.attempts)

/-! ### One iteration -/

section Iteration

variable {runStreak : UInt32} {runs : RunStore} {reply : Reply} {job : RunJob}

theorem iteration_ran (below : ¬ runStreak ≥ runBurst) (waits : runs.pop.1 = some job) :
    iteration runStreak runs reply = (runStreak + 1, .ran job) := by
  simp only [iteration, below, if_false, waits]

theorem iteration_asked (prefers : runStreak ≥ runBurst ∨ runs.pop.1 = none) :
    iteration runStreak runs reply = (afterReply runStreak reply, .asked reply) := by
  rcases prefers with burst | none
  · simp only [iteration, burst, if_true]
  · simp only [iteration, none, ite_self]

theorem pop_of_waiting (waiting : runs.queue ≠ []) : ∃ job, runs.pop.1 = some job := by
  cases first : runs.queue with
  | nil => exact absurd first waiting
  | cons job queue => exact ⟨job, by simp only [RunStore.pop, first]⟩

end Iteration

/-! ### Submissions are asked for -/

namespace WorkerLoop

/-- The streak bounds the runs since the last claim. -/
structure Bursts (worker : WorkerLoop) : Prop where
  bounded : AtMost Turn.Ran runBurst.toNat worker.turns
  last : Ends Turn.Ran worker.runStreak.toNat worker.turns
  streak : worker.runStreak.toNat ≤ runBurst.toNat

theorem toNat_succ {runStreak : UInt32} (less : runStreak.toNat < runBurst.toNat) :
    (runStreak + 1).toNat = runStreak.toNat + 1 := by
  have small : runStreak.toNat + 1 < 2 ^ 32 := (Nat.succ_le_of_lt less).trans_lt (by decide)
  rw [UInt32.toNat_add]
  exact Nat.mod_eq_of_lt small

section Attempts

variable {worker : WorkerLoop} {runStreak runStreak' : UInt32} {turns : List Turn}

theorem attempts_ran (job : RunJob) :
    WorkerLoop.attempts ⟨runStreak, turns ++ [.ran job]⟩ =
      WorkerLoop.attempts ⟨runStreak', turns⟩ := by
  rw [attempts, List.countP_append]
  rfl

theorem attempts_asked (reply : Reply) :
    WorkerLoop.attempts ⟨runStreak, turns ++ [.asked reply]⟩ =
      WorkerLoop.attempts ⟨runStreak', turns⟩ + 1 := by
  rw [attempts, List.countP_append]
  rfl

end Attempts

theorem Bursts.next {worker : WorkerLoop} (kept : Bursts worker) (runs : RunStore)
    (reply : Reply) : Bursts (worker.next runs reply) := by
  by_cases prefers : worker.runStreak ≥ runBurst ∨ runs.pop.1 = none
  · rw [WorkerLoop.next, iteration_asked prefers]
    refine ⟨kept.bounded.concat (.concat_of_not id), .concat_of_not id, ?_⟩
    cases reply with
    | error e => exact kept.streak
    | ok claimed => cases claimed <;> exact Nat.zero_le _
  · obtain ⟨below, some⟩ := not_or.mp prefers
    obtain ⟨job, waits⟩ := Option.ne_none_iff_exists'.mp some
    rw [WorkerLoop.next, iteration_ran below waits]
    have less : worker.runStreak.toNat < runBurst.toNat := Nat.not_le.mp below
    have last : Ends Turn.Ran (worker.runStreak + 1).toNat (worker.turns ++ [.ran job]) := by
      rw [toNat_succ less]
      exact kept.last.concat
    have streak : (worker.runStreak + 1).toNat ≤ runBurst.toNat := by
      rw [toNat_succ less]
      exact less
    exact ⟨kept.bounded.concat (last.mono streak), last, streak⟩

end WorkerLoop

section Loop

variable (queue : Nat → RunStore) (replies : Nat → Reply)

theorem workerLoop_bursts (n : Nat) : (workerLoop queue replies n).Bursts := by
  induction n with
  | zero => exact ⟨.nil, .nil, Nat.zero_le _⟩
  | succ n ih => exact ih.next _ _

/-- **A worker never handles more than `RUN_BURST` runs without asking for a submission.** -/
theorem ran_atMost (n : Nat) :
    AtMost Turn.Ran runBurst.toNat (workerLoop queue replies n).turns :=
  (workerLoop_bursts queue replies n).bounded

/-! ### Runs are served -/

/-- While runs are waiting, every iteration finds one. -/
def Waiting (n : Nat) : Prop := ∀ i < n, (queue i).queue ≠ []

/-- A failed claim is not the last thing the worker does. -/
def NoFailure (n : Nat) : Prop :=
  ∀ k, (runBurst.toNat + 1) * (k + 1) < n → ∃ claimed, replies k = .ok claimed

variable {queue replies}

/-- Where a worker is in its rounds of three runs and a claim, when no claim has failed. -/
structure Round (worker : WorkerLoop) (n : Nat) : Prop where
  streak : worker.runStreak.toNat = n % 4
  attempts : worker.attempts = n / 4
  bounded : AtMost Turn.Asked 1 worker.turns
  last : Ends Turn.Asked (if n % 4 = 0 then 1 else 0) worker.turns

namespace Round

variable {worker : WorkerLoop} {n : Nat} {runs : RunStore} {reply : Reply}

/-- The first three iterations of a round handle a run. -/
theorem ran (round : Round worker n) (waiting : runs.queue ≠ []) (reply : Reply)
    (early : n % 4 < 3) :
    ∃ job, iteration worker.runStreak runs reply = (worker.runStreak + 1, .ran job) := by
  obtain ⟨job, waits⟩ := pop_of_waiting waiting
  refine ⟨job, iteration_ran ?_ waits⟩
  rw [ge_iff_le, UInt32.le_iff_toNat_le, round.streak]
  exact Nat.not_le.mpr early

/-- The last one asks for a submission. -/
theorem asked (round : Round worker n) (runs : RunStore) (reply : Reply) (late : n % 4 = 3) :
    iteration worker.runStreak runs reply = (afterReply worker.runStreak reply, .asked reply) := by
  refine iteration_asked (Or.inl ?_)
  rw [ge_iff_le, UInt32.le_iff_toNat_le, round.streak, late]
  exact Nat.le_refl _

/-- **One more iteration asks at most once in a row.** -/
theorem bounded_next (round : Round worker n) (waiting : runs.queue ≠ []) (reply : Reply) :
    AtMost Turn.Asked 1 (worker.next runs reply).turns := by
  by_cases early : n % 4 < 3
  · obtain ⟨job, same⟩ := round.ran waiting reply early
    rw [WorkerLoop.next, same]
    exact round.bounded.concat (.concat_of_not id)
  · have late : n % 4 = 3 := by omega
    have last := round.last
    rw [if_neg (by omega)] at last
    rw [WorkerLoop.next, round.asked _ _ late]
    exact round.bounded.concat last.concat

/-- **A round goes on** if the claim it may end with succeeds. -/
theorem next (round : Round worker n) (waiting : runs.queue ≠ [])
    (succeeds : n % 4 = 3 → ∃ claimed, reply = .ok claimed) :
    Round (worker.next runs reply) (n + 1) := by
  have bounded := round.bounded_next waiting reply
  by_cases early : n % 4 < 3
  · obtain ⟨job, same⟩ := round.ran waiting reply early
    have streak := round.streak
    have attempts := round.attempts
    rw [WorkerLoop.next, same] at bounded ⊢
    refine ⟨?_, ?_, bounded, .concat_of_not id⟩
    · rw [WorkerLoop.toNat_succ (streak.trans_lt early), streak]
      omega
    · rw [WorkerLoop.attempts_ran, attempts]
      omega
  · have late : n % 4 = 3 := by omega
    obtain ⟨claimed, rfl⟩ := succeeds late
    have attempts := round.attempts
    have last := round.last
    rw [if_neg (by omega)] at last
    rw [WorkerLoop.next, round.asked _ _ late] at bounded ⊢
    refine ⟨?_, ?_, bounded, ?_⟩
    · have zero : (n + 1) % 4 = 0 := by omega
      rw [zero]
      cases claimed <;> rfl
    · rw [WorkerLoop.attempts_asked, attempts]
      omega
    · rw [if_pos (by omega)]
      exact last.concat

end Round

/-- While runs are waiting and no claim fails, a worker goes round after round. -/
theorem round_of_waiting {n : Nat} (waiting : Waiting queue n)
    (succeeds : ∀ k, 4 * (k + 1) ≤ n → ∃ claimed, replies k = .ok claimed) :
    Round (workerLoop queue replies n) n := by
  induction n with
  | zero => exact ⟨rfl, rfl, .nil, .nil⟩
  | succ n ih =>
    have round := ih (fun i less => waiting i (Nat.lt_succ_of_lt less))
      fun k le => succeeds k (Nat.le_succ_of_le le)
    refine round.next (waiting n (Nat.lt_succ_self n)) fun late => ?_
    rw [round.attempts]
    exact succeeds (n / 4) (by omega)

/-- What a worker did stays. -/
theorem turns_initial (queue : Nat → RunStore) (replies : Nat → Reply) {m n : Nat} (le : m ≤ n) :
    (workerLoop queue replies m).turns <+: (workerLoop queue replies n).turns := by
  induction n, le using Nat.le_induction with
  | base => exact List.prefix_rfl
  | succ n _ ih => exact ih.trans (List.prefix_append _ _)

/-- **After a failed claim the next iteration asks again.** -/
theorem asked_twice {n : Nat} (round : Round (workerLoop queue replies n) n) (late : n % 4 = 3)
    {e : StoreError} (fails : replies (n / 4) = .error e) :
    ¬ AtMost Turn.Asked 1 (workerLoop queue replies (n + 2)).turns := by
  have first : workerLoop queue replies (n + 1) =
      ⟨(workerLoop queue replies n).runStreak,
        (workerLoop queue replies n).turns ++ [.asked (.error e)]⟩ := by
    show (workerLoop queue replies n).next _ _ = _
    rw [round.attempts, fails, WorkerLoop.next, round.asked _ _ late]
    rfl
  have burst : (workerLoop queue replies (n + 1)).runStreak ≥ runBurst := by
    rw [first, ge_iff_le, UInt32.le_iff_toNat_le, round.streak, late]
    exact Nat.le_refl _
  have second : ∃ reply, (workerLoop queue replies (n + 2)).turns =
      (workerLoop queue replies n).turns ++ [.asked (.error e), .asked reply] := by
    refine ⟨replies (workerLoop queue replies (n + 1)).attempts, ?_⟩
    show ((workerLoop queue replies (n + 1)).next _ _).turns = _
    rw [WorkerLoop.next, iteration_asked (Or.inl burst), first, List.append_assoc]
    rfl
  obtain ⟨reply, turns⟩ := second
  intro bounded
  have two := bounded [.asked (.error e), .asked reply] (turns ▸ List.infix_append' _ _ [])
    (by simp [Turn.Asked])
  exact absurd two (by simp)

/-- **Neither lane starves the other, unless a claim fails.** For every worker, every contents of
the run queue and every replies of `claim_next`: between two claims there are at most `RUN_BURST`
runs, and while runs are waiting there is at most one claim between two runs — the latter exactly if
no claim fails that another iteration follows. -/
theorem lanes_fair_iff (queue : Nat → RunStore) (replies : Nat → Reply) (n : Nat) :
    (AtMost Turn.Ran runBurst.toNat (workerLoop queue replies n).turns ∧
      (Waiting queue n → AtMost Turn.Asked 1 (workerLoop queue replies n).turns)) ↔
    (Waiting queue n → NoFailure replies n) := by
  refine ⟨fun fair waiting k => ?_, fun succeeds => ⟨ran_atMost queue replies n, ?_⟩⟩
  · -- up to the first failed claim the rounds are regular
    induction k using Nat.strong_induction_on with
    | _ k ih =>
      intro less
      change 4 * (k + 1) < n at less
      have round : Round (workerLoop queue replies (4 * k + 3)) (4 * k + 3) := by
        refine round_of_waiting (fun i before => waiting i (by omega)) fun j le => ?_
        refine ih j (by omega) ?_
        show 4 * (j + 1) < n
        omega
      cases fails : replies k with
      | ok claimed => exact ⟨claimed, rfl⟩
      | error e =>
        have index : (4 * k + 3) / 4 = k := by omega
        have twice := asked_twice round (by omega) (index ▸ fails)
        have sooner : 4 * k + 3 + 2 ≤ n := by omega
        exact absurd ((fair.2 waiting).of_part (turns_initial queue replies sooner).isInfix) twice
  · intro waiting
    cases n with
    | zero => exact .nil
    | succ n =>
      refine Round.bounded_next (round_of_waiting (fun i less => waiting i (by omega)) ?_)
        (waiting n (Nat.lt_succ_self n)) _
      intro k le
      refine succeeds waiting k ?_
      show 4 * (k + 1) < n + 1
      omega

end Loop

/-! ### Runs that are not served -/

/-- A store whose run queue is never empty. -/
def busy : RunStore := { RunStore.new 256 600 with queue := [sampleRun] }

/-- **While claims fail no run is served.** -/
theorem runs_starve : ¬ ∀ (queue : Nat → RunStore) (replies : Nat → Reply) (n : Nat),
    Waiting queue n → AtMost Turn.Asked 1 (workerLoop queue replies n).turns := by
  intro always
  have bounded := always (fun _ => busy) (fun _ => .error .queryReturnedNoRows) 5
    (fun _ _ => List.cons_ne_nil _ _)
  have two := bounded [.asked (.error .queryReturnedNoRows), .asked (.error .queryReturnedNoRows)]
    ⟨[.ran sampleRun, .ran sampleRun, .ran sampleRun], [], rfl⟩ (by simp [Turn.Asked])
  exact absurd two (by decide)

end Codexec.Server
