/-
**No worker waits for a box.**

The calls of the pool that are not over belong to one busy worker each (`Kept.owned`). Counting both
sides, permits and busy workers are together as many as boxes and waiting calls (`Kept.balance`), so
with no more workers than boxes there is a permit for everybody who waits.

* `no_worker_waits` — whoever asks for a box finds a permit, and any worker can finish what it
  judges while all the others stand still: one lemma for each place its call can be in (`answers`),
  then induction on what is left of its run (`finishes`).
* `boxes_come_back` — two workers never share a box, what is in a box was made by the run that has
  it, and whenever no worker is judging all boxes are back.
-/

import Codexec.Server.Crew
import Mathlib.Data.List.FinRange

namespace Codexec.Server

open Codexec Codexec.Library

namespace Crew

variable {cfg : IsolateConfig} {count : UInt32} {s : Crew}

/-! ### Counting -/

/-- It waits for a permit. -/
def waits : Holder → Bool
  | .waiting => true
  | _ => false

theorem sum_weight (calls : List Holder) :
    (calls.map Holder.weight).sum = calls.countP Holder.permitted := by
  induction calls with
  | nil => rfl
  | cons holder calls ih =>
    rw [List.map_cons, List.sum_cons, List.countP_cons, ih, Nat.add_comm]
    rfl

namespace Kept

/-- **Permits and busy workers are as many as boxes and waiting calls.** -/
theorem balance (kept : Kept cfg count s) :
    s.pool.permits + s.workers.countP Worker.busy =
      cfg.slots.toNat + s.pool.calls.countP waits := by
  have parts : s.pool.calls.countP unfinished =
      s.pool.calls.countP waits + s.pool.calls.countP Holder.permitted := by
    refine Table.countP_add fun holder inside => ?_
    cases holder with
    | panicked => exact absurd inside kept.pool.calm
    | _ => rfl
  have permits := kept.pool.permits
  rw [sum_weight] at permits
  have even := kept.even
  omega

/-- **With no more workers than boxes there is a permit for everybody who waits.** -/
theorem waits_le (kept : Kept cfg count s) (enough : count ≤ cfg.slots) :
    s.pool.calls.countP waits ≤ s.pool.permits := by
  have balance := kept.balance
  have few : s.workers.countP Worker.busy ≤ s.workers.length := List.countP_le_length
  have size := kept.size
  have most := UInt32.le_iff_toNat_le.mp enough
  omega

/-- **A call that is not over belongs to a worker.** -/
theorem owned (kept : Kept cfg count s) {call : Nat} {holder : Holder}
    (here : s.pool.calls[call]? = some holder) (going : unfinished holder = true) :
    ∃ (index : Nat) (worker : Worker),
      s.workers[index]? = some worker ∧ worker.call = some call := by
  let going' := ((List.finRange s.pool.calls.length).filter fun index =>
    unfinished (s.pool.calls.get index)).map Fin.val
  have many : going'.length = s.pool.calls.countP unfinished := by
    conv_rhs => rw [← List.map_get_finRange s.pool.calls, List.countP_map]
    rw [List.length_map, List.countP_eq_length_filter]
    rfl
  let mine := s.workers.filterMap Worker.call
  have distinct : mine.Nodup := by
    refine List.pairwise_filterMap.mpr (List.pairwise_iff_getElem.mpr ?_)
    rintro one two bound bound' less call there call' there' rfl
    have same := kept.apart one two _ _ call (List.getElem?_eq_getElem bound)
      (List.getElem?_eq_getElem bound') there there'
    omega
  have inside : mine ⊆ going' := by
    intro call' member
    obtain ⟨worker, member, taken⟩ := List.mem_filterMap.mp member
    obtain ⟨index, there⟩ := List.getElem?_of_mem member
    obtain ⟨holder', there', going''⟩ := (kept.fit index worker there).unfinished taken
    obtain ⟨bound, rfl⟩ := List.getElem?_eq_some_iff.mp there'
    refine List.mem_map.mpr ⟨⟨call', bound⟩, List.mem_filter.mpr ⟨List.mem_finRange _, ?_⟩, rfl⟩
    exact going''
  have all : going'.length ≤ mine.length := by
    rw [many, kept.even, List.length_filterMap_eq_countP]
    exact Nat.le_refl _
  have equal := (List.subperm_of_subset distinct inside).perm_of_length_le all
  obtain ⟨bound, rfl⟩ := List.getElem?_eq_some_iff.mp here
  have member : call ∈ going' :=
    List.mem_map.mpr ⟨⟨call, bound⟩, List.mem_filter.mpr ⟨List.mem_finRange _, going⟩, rfl⟩
  obtain ⟨worker, member, taken⟩ := List.mem_filterMap.mp (equal.mem_iff.mpr member)
  obtain ⟨index, there⟩ := List.getElem?_of_mem member
  exact ⟨index, worker, there, taken⟩

end Kept

/-! ### Every worker finishes -/

/-- The worker can get its answer by its own steps. -/
def Answers [Host] (cfg : IsolateConfig) (self : Judge) (count : UInt32) (worker : Nat)
    {request : Call} (next : Call.Answer request → JudgeM (Except JudgeError JudgeResult))
    (s : Crew) : Prop :=
  ∃ answer call after, (crew cfg self count).Leads (fun event => event.worker = worker) s after ∧
    after.workers[worker]? = some (.judging (next answer) call)

section Answers

variable [Host] {self : Judge} {worker call : Nat} {request : Call}
  {next : Call.Answer request → JudgeM (Except JudgeError JudgeResult)} {box : IsolateBox}

theorem Answers.after {event : PoolEvent} {pool : Pool}
    (here : s.workers[worker]? = some (.judging (.call request next) (some call)))
    (awaits : Awaits call request event) (step : Pool.Step s.pool event pool)
    (later : Answers cfg self count worker next { s with pool := pool }) :
    Answers cfg self count worker next s := by
  obtain ⟨answer, call', after, leads, there⟩ := later
  exact ⟨answer, call', after, .next rfl (.awaits here awaits step) leads, there⟩

/-- The last step of the pool brings the answer. -/
theorem Answers.now {event : PoolEvent} {pool : Pool} {answer : Call.Answer request}
    {after : Option Nat}
    (here : s.workers[worker]? = some (.judging (.call request next) (some call)))
    (yields : Yields call request event answer after) (step : Pool.Step s.pool event pool) :
    Answers cfg self count worker next s :=
  ⟨answer, after, _, .next rfl (.answered here yields step) (.refl _),
    List.getElem?_set_self (List.getElem?_eq_some_iff.mp here).1⟩

end Answers

section Acquire

variable [Host] {self : Judge} {worker call : Nat} {box : IsolateBox}
  {next : Call.Answer .acquire → JudgeM (Except JudgeError JudgeResult)}

theorem answers_initialising
    (here : s.workers[worker]? = some (.judging (.call .acquire next) (some call)))
    (there : s.pool.calls[call]? = some (.initialising box)) :
    Answers cfg self count worker next s :=
  .now here .acquired (.initialised call there)

theorem answers_cleaning
    (here : s.workers[worker]? = some (.judging (.call .acquire next) (some call)))
    (there : s.pool.calls[call]? = some (.cleaning box)) :
    Answers cfg self count worker next s := by
  have bound := (List.getElem?_eq_some_iff.mp there).1
  have after : ((s.pool.move call (.initialising box)).record box.id .cleaned).calls[call]? =
      some (.initialising box) := List.getElem?_set_self bound
  exact .after here .cleaned (.cleaned call there) (answers_initialising here after)

/-- A call that was given a permit finds an id. -/
theorem answers_granted (kept : Kept cfg count s) (fits : cfg.Fits)
    (here : s.workers[worker]? = some (.judging (.call .acquire next) (some call)))
    (there : s.pool.calls[call]? = some .granted) : Answers cfg self count worker next s := by
  have bound := (List.getElem?_eq_some_iff.mp there).1
  have some' := kept.pool.freeIds_ne_nil fits there
  have last := (List.dropLast_append_getLast some').symm
  have after : (s.pool.move call (.cleaning ⟨s.pool.freeIds.getLast some', false⟩)).calls[call]? =
      some (.cleaning ⟨s.pool.freeIds.getLast some', false⟩) := List.getElem?_set_self bound
  exact .after here .pop (.pop call there last) (answers_cleaning here after)

/-- A call that waits for a permit is given one. -/
theorem answers_waiting (self : Judge) (kept : Kept cfg count s) (fits : cfg.Fits)
    (enough : count ≤ cfg.slots)
    (here : s.workers[worker]? = some (.judging (.call .acquire next) (some call)))
    (there : s.pool.calls[call]? = some .waiting) : Answers cfg self count worker next s := by
  have bound := (List.getElem?_eq_some_iff.mp there).1
  have someone : 0 < s.pool.calls.countP waits :=
    List.countP_pos_iff.mpr ⟨_, List.mem_of_getElem? there, rfl⟩
  have permitted := kept.waits_le enough
  have available : s.pool.permits = s.pool.permits - 1 + 1 := by omega
  have grant := Pool.Step.grant call there available
  have granted : (s.pool.move call .granted).calls[call]? = some .granted :=
    List.getElem?_set_self bound
  have granting : Step self s _ _ := .awaits here .grant grant
  have after := kept.step fits granting
  exact .after here .grant grant (answers_granted after fits here granted)

/-- A call whose box is dropped ends with an error. -/
theorem answers_dropped
    (here : s.workers[worker]? = some (.judging (.call .acquire next) (some call)))
    (there : s.pool.calls[call]? = some .dropped) : Answers cfg self count worker next s :=
  .now here (.refused (.backend "")) (.free call there)

end Acquire

section Release

variable [Host] {self : Judge} {worker call : Nat} {box : IsolateBox}
  {next : Call.Answer .release → JudgeM (Except JudgeError JudgeResult)}

theorem answers_freeing
    (here : s.workers[worker]? = some (.judging (.call .release next) (some call)))
    (there : s.pool.calls[call]? = some .dropped) : Answers cfg self count worker next s :=
  .now here (.released (.ok ())) (.free call there)

theorem answers_releasing
    (here : s.workers[worker]? = some (.judging (.call .release next) (some call)))
    (there : s.pool.calls[call]? = some (.releasing box)) :
    Answers cfg self count worker next s := by
  have bound := (List.getElem?_eq_some_iff.mp there).1
  have after : ((s.pool.drop call box).record box.id .cleaned).calls[call]? = some .dropped :=
    List.getElem?_set_self bound
  exact .after here .released (.released call there) (answers_freeing here after)

theorem answers_release
    (here : s.workers[worker]? = some (.judging (.call .release next) (some call)))
    (there : s.pool.calls[call]? = some (.inUse box)) : Answers cfg self count worker next s := by
  have bound := (List.getElem?_eq_some_iff.mp there).1
  have after : (s.pool.move call (.releasing box)).calls[call]? = some (.releasing box) :=
    List.getElem?_set_self bound
  exact .after here .release (.release call there) (answers_releasing here after)

end Release

/-- **Whatever a run asks for, it is answered** although nobody else moves. -/
theorem answers [Host] (self : Judge) {worker : Nat} {request : Call} {call : Option Nat}
    {next : Call.Answer request → JudgeM (Except JudgeError JudgeResult)}
    (kept : Kept cfg count s) (fits : cfg.Fits) (enough : count ≤ cfg.slots)
    (here : s.workers[worker]? = some (.judging (.call request next) call)) :
    Answers cfg self count worker next s := by
  obtain ⟨held, obeys, placed⟩ := kept.fit _ _ here
  obtain ⟨permitted, later⟩ := obeys.of_call
  cases call with
  | none =>
    obtain rfl : held = false := placed
    cases request with
    | acquire =>
      have bound := (List.getElem?_eq_some_iff.mp here).1
      have asks : Step self s _ _ := .asks here .acquire
      have after := kept.step fits asks
      obtain ⟨answer, call, last, leads, there⟩ :=
        answers_waiting self after fits enough (List.getElem?_set_self bound)
          List.getElem?_concat_length
      exact ⟨answer, call, last, .next rfl asks leads, there⟩
    | _ => cases permitted
  | some call =>
    obtain ⟨request', next', holder, same, there, inside⟩ := placed
    cases same
    cases request with
    | acquire =>
      cases holder with
      | waiting => exact answers_waiting self kept fits enough here there
      | granted => exact answers_granted kept fits here there
      | cleaning box => exact answers_cleaning here there
      | initialising box => exact answers_initialising here there
      | dropped => exact answers_dropped here there
      | _ => cases inside
    | writeFile name contents =>
      cases holder with
      | inUse box => exact .now here (.written name contents (.ok ())) (.write call there)
      | _ => cases inside
    | exec spec stdin =>
      cases holder with
      | inUse box =>
        exact .now here (.executed spec stdin (.error (.backend ""))) (.exec call spec there)
      | _ => cases inside
    | release =>
      cases holder with
      | inUse box => exact answers_release here there
      | releasing box => exact answers_releasing here there
      | dropped => exact answers_freeing here there
      | _ => cases inside
    | notify event =>
      exact ⟨(), some call, _, .next rfl (.tells here) (.refl _),
        List.getElem?_set_self (List.getElem?_eq_some_iff.mp here).1⟩

/-- **A worker finishes what it judges** although nobody else moves. -/
theorem finishes [Host] (self : Judge) {worker : Nat} {call : Option Nat}
    {left : JudgeM (Except JudgeError JudgeResult)} (kept : Kept cfg count s) (fits : cfg.Fits)
    (enough : count ≤ cfg.slots) (here : s.workers[worker]? = some (.judging left call)) :
    ∃ after, (crew cfg self count).Leads (fun event => event.worker = worker) s after ∧
      after.workers[worker]? = some .idle := by
  induction left generalizing s call with
  | pure value =>
    exact ⟨_, .next rfl (.returns here) (.refl _),
      List.getElem?_set_self (List.getElem?_eq_some_iff.mp here).1⟩
  | call request next ih =>
    obtain ⟨answer, call', middle, leads, there⟩ := answers self kept fits enough here
    obtain ⟨after, more, idle⟩ := ih answer (leads.keeps (crew_kept fits self count) kept) there
    exact ⟨after, leads.trans more, idle⟩

end Crew

/-! ### Every run -/

variable {cfg : IsolateConfig} {count : UInt32} {s : Crew}

/-- **No worker waits for another one.** With no more workers than boxes, whenever some calls wait
for a permit there is a permit for each of them; and at any time any worker can finish what it is
judging by steps of its own, while all others stand still. -/
theorem no_worker_waits [Host] (fits : cfg.Fits) (enough : count ≤ cfg.slots) (self : Judge)
    (reachable : (crew cfg self count).Reachable s) :
    s.pool.calls.countP Crew.waits ≤ s.pool.permits ∧
    ∀ worker, worker < count.toNat → ∃ after,
      (crew cfg self count).Leads (fun event => event.worker = worker) s after ∧
        after.workers[worker]? = some .idle := by
  have kept := (crew_kept fits self count).of_reachable reachable
  refine ⟨kept.waits_le enough, fun worker bound => ?_⟩
  rw [← kept.size] at bound
  cases doing : s.workers[worker] with
  | idle => exact ⟨s, .refl s, by rw [List.getElem?_eq_getElem bound, doing]⟩
  | judging left call =>
    have here : s.workers[worker]? = some (.judging left call) := by
      rw [List.getElem?_eq_getElem bound, doing]
    exact Crew.finishes self kept fits enough here

/-- Both workers of a new server ask for a box. -/
theorem both_ask : letI := plainHost
    ∃ s, (crew {} sampleJudge 2).Reachable s ∧ s.pool.calls = [.waiting, .waiting] := by
  let host := plainHost
  have known : sampleJudge.languages.get "python" = some python := by decide
  have asks := sampleJudge.judge_of_known (sampleRequest "python" "2\n") true known
  let start : Crew := ⟨⟨[1, 0], 2, [], fun _ => []⟩, [.idle, .idle]⟩
  have run : (crew {} sampleJudge 2).Run [] start := .start ⟨⟨.ok (), _, rfl⟩, rfl⟩
  have run := run.next (@Crew.Step.begins _ _ _ 0 (sampleRequest "python" "2\n") true rfl)
  have run := run.next (@Crew.Step.begins _ _ _ 1 (sampleRequest "python" "2\n") true rfl)
  rw [asks] at run
  have run := run.next (@Crew.Step.asks _ _ _ _ 0 _ rfl .acquire)
  have run := run.next (@Crew.Step.asks _ _ _ _ 1 _ rfl .acquire)
  exact ⟨_, ⟨_, run⟩, rfl⟩

theorem no_worker_waits_sample : letI := plainHost
    ∃ s, (crew {} sampleJudge 2).Reachable s ∧ s.pool.calls = [.waiting, .waiting] ∧
      2 ≤ s.pool.permits ∧ ∃ after,
        (crew {} sampleJudge 2).Leads (fun event => event.worker = 1) s after ∧
          after.workers[1]? = some .idle := by
  let host := plainHost
  obtain ⟨s, reachable, calls⟩ := both_ask
  have enough := no_worker_waits (by decide) (by decide) sampleJudge reachable
  rw [calls] at enough
  exact ⟨s, reachable, calls, enough.1, enough.2 1 (by decide)⟩

/-- **No box is shared and none is lost**, however many workers there are, whatever fails and in
whatever order they go on. Two workers have different boxes; a box that is not free is with one of
the workers; the files in a box in use are those of the run that has it; and when no worker is
judging, all boxes and all permits are back. -/
theorem boxes_come_back [Host] (fits : cfg.Fits) (self : Judge)
    (reachable : (crew cfg self count).Reachable s) :
    (∀ (one two : Nat) (worker worker' : Worker) (call call' : Nat) (holder holder' : Holder)
      (id : UInt32), s.workers[one]? = some worker → s.workers[two]? = some worker' →
      worker.call = some call → worker'.call = some call' → s.pool.calls[call]? = some holder →
      s.pool.calls[call']? = some holder' → id ∈ holder.ids → id ∈ holder'.ids → one = two) ∧
    (∀ id ∈ cfg.ids, id ∉ s.pool.freeIds → ∃ (index : Nat) (worker : Worker) (call : Nat)
      (holder : Holder), s.workers[index]? = some worker ∧ worker.call = some call ∧
      s.pool.calls[call]? = some holder ∧ id ∈ holder.ids) ∧
    (∀ (index call : Nat) (worker : Worker) (box : IsolateBox), s.workers[index]? = some worker →
      worker.call = some call → s.pool.calls[call]? = some (.inUse box) →
      ∀ other ∈ leftovers (s.pool.deeds box.id), other = call) ∧
    ((∀ worker ∈ s.workers, worker = .idle) →
      s.pool.freeIds.Perm cfg.ids ∧ s.pool.permits = cfg.slots.toNat) := by
  have kept := (crew_kept fits self count).of_reachable reachable
  refine ⟨?_, fun id inside taken => ?_, ?_, fun idle => ?_⟩
  · intro one two worker worker' call call' holder holder' id here here' mine mine' there there' a b
    obtain rfl := Pool.exclusive (kept.pool.live_distinct fits) there there' a b
    exact kept.apart one two worker worker' call here here' mine mine'
  · have live : id ∈ s.pool.liveIds := by
      rcases List.mem_append.mp (kept.pool.ids.mem_iff.mpr inside) with free | live
      · exact absurd free taken
      · exact live
    obtain ⟨holder, member, has⟩ := List.mem_flatMap.mp live
    obtain ⟨call, there⟩ := List.getElem?_of_mem member
    have going : unfinished holder = true := by
      cases holder <;> first | rfl | cases has
    obtain ⟨index, worker, here, mine⟩ := kept.owned there going
    exact ⟨index, worker, call, holder, here, mine, there, has⟩
  · intro index call worker box here mine there
    have own : Own call (s.pool.deeds box.id) := kept.pool.fits call _ there
    exact own.leftovers
  · have none : s.workers.countP Worker.busy = 0 := by
      refine List.countP_eq_zero.mpr fun worker member => ?_
      rw [idle worker member]
      exact Bool.false_ne_true
    have ended : ∀ holder ∈ s.pool.calls, unfinished holder = false := by
      have even := kept.even
      rw [none] at even
      exact fun holder member => Bool.eq_false_iff.mpr (List.countP_eq_zero.mp even holder member)
    have live : s.pool.liveIds = [] := by
      refine List.flatMap_eq_nil_iff.mpr fun holder member => ?_
      have gone := ended holder member
      cases holder <;> first | rfl | cases gone
    have waiting : s.pool.calls.countP Crew.waits = 0 := by
      refine List.countP_eq_zero.mpr fun holder member => ?_
      have gone := ended holder member
      cases holder <;> first | exact Bool.false_ne_true | cases gone
    have ids := kept.pool.ids
    rw [live, List.append_nil] at ids
    have balance := kept.balance
    exact ⟨ids, by omega⟩

/-- Each of two workers has one of the two boxes. Both fail to set it up, and both runs end. -/
theorem both_fail : letI := plainHost
    ∃ s after, (crew {} sampleJudge 2).Reachable s ∧
      s.pool.calls = [.cleaning ⟨1, false⟩, .cleaning ⟨0, false⟩] ∧ s.pool.freeIds = [] ∧
      (crew {} sampleJudge 2).Leads (fun _ => True) s after ∧ after.workers = [.idle, .idle] := by
  let host := plainHost
  have known : sampleJudge.languages.get "python" = some python := by decide
  have asks := sampleJudge.judge_of_known (sampleRequest "python" "2\n") true known
  let start : Crew := ⟨⟨[1, 0], 2, [], fun _ => []⟩, [.idle, .idle]⟩
  have run : (crew {} sampleJudge 2).Run [] start := .start ⟨⟨.ok (), _, rfl⟩, rfl⟩
  have run := run.next (@Crew.Step.begins _ _ _ 0 (sampleRequest "python" "2\n") true rfl)
  have run := run.next (@Crew.Step.begins _ _ _ 1 (sampleRequest "python" "2\n") true rfl)
  rw [asks] at run
  have run := run.next (@Crew.Step.asks _ _ _ _ 0 _ rfl .acquire)
  have run := run.next (@Crew.Step.asks _ _ _ _ 1 _ rfl .acquire)
  have run := run.next (@Crew.Step.awaits _ _ _ _ 0 0 _ _ _ rfl .grant (.grant 0 rfl rfl))
  have run := run.next (@Crew.Step.awaits _ _ _ _ 1 1 _ _ _ rfl .grant (.grant 1 rfl rfl))
  have run := run.next (@Crew.Step.awaits _ _ _ _ 1 1 _ _ _ rfl .pop
    (@Pool.Step.pop _ [1] 0 1 rfl rfl))
  have run := run.next (@Crew.Step.awaits _ _ _ _ 0 0 _ _ _ rfl .pop
    (@Pool.Step.pop _ [] 1 0 rfl rfl))
  exact ⟨_, _, ⟨_, run⟩, rfl, rfl,
    .next trivial (@Crew.Step.awaits _ _ _ _ 0 0 _ _ _ rfl .undo (@Pool.Step.drop _ _ _ 0 rfl rfl))
      (.next trivial (@Crew.Step.awaits _ _ _ _ 1 1 _ _ _ rfl .undo
        (@Pool.Step.drop _ _ _ 1 rfl rfl))
      (.next trivial (@Crew.Step.answered _ _ _ _ 0 0 _ _ _ _ _ rfl (.refused (.backend ""))
        (.free 0 rfl))
      (.next trivial (@Crew.Step.answered _ _ _ _ 1 1 _ _ _ _ _ rfl (.refused (.backend ""))
        (.free 1 rfl))
      (.next trivial (@Crew.Step.returns _ _ _ 0 _ _ rfl)
      (.next trivial (@Crew.Step.returns _ _ _ 1 _ _ rfl) (.refl _)))))), rfl⟩

theorem boxes_come_back_sample : letI := plainHost
    ∃ s after, (crew {} sampleJudge 2).Reachable s ∧
      s.pool.calls = [.cleaning ⟨1, false⟩, .cleaning ⟨0, false⟩] ∧
      (∃ (index : Nat) (worker : Worker) (call : Nat) (holder : Holder),
        s.workers[index]? = some worker ∧ worker.call = some call ∧
        s.pool.calls[call]? = some holder ∧ (0 : UInt32) ∈ holder.ids) ∧
      (crew {} sampleJudge 2).Leads (fun _ => True) s after ∧
      after.pool.freeIds.Perm [0, 1] ∧ after.pool.permits = 2 := by
  let host := plainHost
  obtain ⟨s, after, reachable, calls, none, leads, idle⟩ := both_fail
  have fits : ({} : IsolateConfig).Fits := by decide
  obtain ⟨-, lent, -⟩ := boxes_come_back fits sampleJudge reachable
  obtain ⟨-, -, -, back⟩ := boxes_come_back fits sampleJudge (leads.reachable reachable)
  have all : ∀ worker ∈ after.workers, worker = .idle := by
    rw [idle]
    simp
  refine ⟨s, after, reachable, calls, lent 0 (by decide) ?_, leads, back all⟩
  rw [none]
  exact List.not_mem_nil

end Codexec.Server
