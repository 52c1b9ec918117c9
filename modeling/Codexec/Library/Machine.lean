/-
**Labelled transition systems and their runs.**

A `Machine` says which states a run may start in and which labelled steps there are. `Run` keeps
the transitions of a run, newest first, so that a statement can speak about every step taken and
not only about the last state. The rules are the usual ones:

* `Invariant.of_run` — what holds at the start and survives every step holds at the end of every
  run, and (`Invariant.of_transition`) around every step of it.
* `Run.persists` — what a step never undoes is still there at the end.
* `Run.countP_le_one` — an event that makes such a fact true happens at most once.
* `Run.guarded` — a run all of whose steps satisfy a guard is a run of the guarded machine.
* `Run.keeps` — what steps of some kind keep holds all along a run of such steps.
* `Leads.reachable` — what some steps lead to from a reachable state is reachable.
* `Refinement.reachable` — a machine whose steps are steps of another one, or change nothing the
  other one sees, reaches only what the other one reaches.
-/

import Mathlib.Data.List.Basic

namespace Codexec.Library

/-- A labelled transition system. -/
structure Machine (σ ε : Type) where
  start : σ → Prop
  step : σ → ε → σ → Prop

/-- One step of a run, with the states around it. -/
structure Transition (σ ε : Type) where
  before : σ
  label : ε
  after : σ

namespace Machine

variable {σ ε τ δ : Type}

/-- A run: its transitions, newest first, and the state it ends in. -/
inductive Run (machine : Machine σ ε) : List (Transition σ ε) → σ → Prop
  | start {state : σ} (initial : machine.start state) : Run machine [] state
  | next {steps : List (Transition σ ε)} {state after : σ} {label : ε}
      (earlier : Run machine steps state) (step : machine.step state label after) :
      Run machine (⟨state, label, after⟩ :: steps) after

/-- The states some run ends in. -/
def Reachable (machine : Machine σ ε) (state : σ) : Prop := ∃ steps, machine.Run steps state

/-- The same machine, with the steps that violate a guard removed. -/
def guarded (machine : Machine σ ε) (guard : σ → ε → Prop) : Machine σ ε where
  start := machine.start
  step state label after := guard state label ∧ machine.step state label after

/-- A predicate that holds at the start and is kept by every step. -/
structure Invariant (machine : Machine σ ε) (holds : σ → Prop) : Prop where
  start : ∀ state, machine.start state → holds state
  step : ∀ state label after, holds state → machine.step state label after → holds after

section Runs

variable {machine : Machine σ ε} {holds : σ → Prop} {steps : List (Transition σ ε)} {state : σ}

/-- **An invariant holds at the end of every run.** -/
theorem Invariant.of_run (invariant : machine.Invariant holds) (run : machine.Run steps state) :
    holds state := by
  induction run with
  | start initial => exact invariant.start _ initial
  | next _ step ih => exact invariant.step _ _ _ ih step

theorem Invariant.of_reachable (invariant : machine.Invariant holds)
    (reachable : machine.Reachable state) : holds state := by
  obtain ⟨steps, run⟩ := reachable
  exact invariant.of_run run

/-- **An invariant holds before every step of a run**, and the step is one of the machine's. -/
theorem Invariant.of_transition (invariant : machine.Invariant holds)
    (run : machine.Run steps state) {taken : Transition σ ε} (member : taken ∈ steps) :
    holds taken.before ∧ machine.step taken.before taken.label taken.after := by
  induction run with
  | start _ => cases member
  | next earlier step ih =>
    rcases List.mem_cons.mp member with rfl | member
    · exact ⟨invariant.of_run earlier, step⟩
    · exact ih member

/-- The part of a run before one of its steps, and the step. -/
theorem Run.split {later earlier : List (Transition σ ε)} {taken : Transition σ ε}
    (run : machine.Run (later ++ taken :: earlier) state) :
    machine.Run earlier taken.before ∧ machine.step taken.before taken.label taken.after := by
  induction later generalizing state with
  | nil =>
    cases run with
    | next before step => exact ⟨before, step⟩
  | cons _ _ ih =>
    cases run with
    | next before _ => exact ih before

/-- A step of a run is taken in a state that a run reaches. -/
theorem Run.reaches {taken : Transition σ ε} (run : machine.Run steps state)
    (member : taken ∈ steps) : ∃ earlier, machine.Run earlier taken.before ∧
      machine.step taken.before taken.label taken.after := by
  obtain ⟨later, earlier, rfl⟩ := List.append_of_mem member
  exact ⟨earlier, run.split⟩

/-- **What every step keeps stays**, from any state of a run on. -/
theorem Run.stays (run : machine.Run steps state) (kept : σ → Prop)
    (stable : ∀ before label after, machine.step before label after → kept before → kept after)
    {taken : Transition σ ε} (member : taken ∈ steps) (here : kept taken.before) : kept state := by
  induction run with
  | start _ => cases member
  | next earlier step ih =>
    rcases List.mem_cons.mp member with rfl | member
    · exact stable _ _ _ step here
    · exact stable _ _ _ step (ih member)

/-- **What no step undoes stays.** -/
theorem Run.persists (run : machine.Run steps state) (invariant : machine.Invariant holds)
    {settled : σ → Prop} (stable : ∀ before label after, holds before →
      machine.step before label after → settled before → settled after)
    {taken : Transition σ ε} (member : taken ∈ steps) (reached : settled taken.after) :
    settled state := by
  induction run with
  | start _ => cases member
  | next earlier step ih =>
    rcases List.mem_cons.mp member with rfl | member
    · exact reached
    · exact stable _ _ _ (invariant.of_run earlier) step (ih member)

/-- **An event that settles a fact happens at most once.** -/
theorem Run.countP_le_one (run : machine.Run steps state) (invariant : machine.Invariant holds)
    {settled : σ → Prop} (stable : ∀ before label after, holds before →
      machine.step before label after → settled before → settled after)
    (event : Transition σ ε → Bool)
    (settles : ∀ taken ∈ steps, event taken = true → ¬ settled taken.before ∧ settled taken.after) :
    steps.countP event ≤ 1 := by
  induction run with
  | start _ => simp
  | @next steps before after label earlier step ih =>
    have rest := ih fun taken member => settles taken (List.mem_cons_of_mem _ member)
    rw [List.countP_cons]
    by_cases happens : event ⟨before, label, after⟩ = true
    · have before : steps.countP event = 0 := by
        rw [List.countP_eq_zero]
        intro taken member same
        have reached := (settles taken (List.mem_cons_of_mem _ member) same).2
        exact (settles _ List.mem_cons_self happens).1
          (earlier.persists invariant stable member reached)
      rw [if_pos happens]
      omega
    · rw [if_neg happens]
      exact rest

/-- Removing steps breaks no invariant. -/
theorem Invariant.guarded (invariant : machine.Invariant holds) (guard : σ → ε → Prop) :
    (machine.guarded guard).Invariant holds where
  start := invariant.start
  step state label after before step := invariant.step state label after before step.2

/-- **A run whose steps all satisfy a guard is a run of the guarded machine.** -/
theorem Run.guarded (run : machine.Run steps state) {guard : σ → ε → Prop}
    (meets : ∀ taken ∈ steps, guard taken.before taken.label) :
    (machine.guarded guard).Run steps state := by
  induction run with
  | start initial => exact .start initial
  | next earlier step ih =>
    refine .next (ih fun taken member => meets taken (List.mem_cons_of_mem _ member)) ⟨?_, step⟩
    exact meets _ List.mem_cons_self

/-- A guarded run goes on with a step that the guard permits. -/
theorem Run.permitted {guard : σ → ε → Prop} (earlier : (machine.guarded guard).Run steps state)
    {label : ε} {after : σ} (step : machine.step state label after) (meets : guard state label) :
    (machine.guarded guard).Run (⟨state, label, after⟩ :: steps) after :=
  earlier.next ⟨meets, step⟩

/-- **A run of a guarded machine is a run, and all its steps satisfy the guard.** -/
theorem Run.of_guarded {guard : σ → ε → Prop} (run : (machine.guarded guard).Run steps state) :
    machine.Run steps state ∧ ∀ taken ∈ steps, guard taken.before taken.label := by
  induction run with
  | start initial => exact ⟨.start initial, fun _ member => absurd member List.not_mem_nil⟩
  | next _ step ih =>
    refine ⟨.next ih.1 step.2, fun taken member => ?_⟩
    rcases List.mem_cons.mp member with rfl | member
    · exact step.1
    · exact ih.2 taken member

/-- **What the allowed steps keep holds all along a run of such steps.** -/
theorem Run.keeps (run : machine.Run steps state) {allowed : Transition σ ε → Prop}
    (start : ∀ state, machine.start state → holds state)
    (kept : ∀ taken, holds taken.before → allowed taken →
      machine.step taken.before taken.label taken.after → holds taken.after)
    (all : ∀ taken ∈ steps, allowed taken) :
    holds state ∧ ∀ taken ∈ steps, holds taken.before ∧
      machine.step taken.before taken.label taken.after := by
  induction run with
  | start initial => exact ⟨start _ initial, fun _ member => absurd member List.not_mem_nil⟩
  | next _ step ih =>
    obtain ⟨here, before⟩ := ih fun taken member => all taken (List.mem_cons_of_mem _ member)
    refine ⟨kept _ here (all _ List.mem_cons_self) step, fun taken member => ?_⟩
    rcases List.mem_cons.mp member with rfl | member
    · exact ⟨here, step⟩
    · exact before taken member

/-- A run of allowed steps goes on with an allowed step. -/
theorem Run.extend {allowed : Transition σ ε → Prop} {label : ε} {after : σ}
    (earlier : machine.Run steps state ∧ ∀ taken ∈ steps, allowed taken)
    (step : machine.step state label after) (meets : allowed ⟨state, label, after⟩) :
    machine.Run (⟨state, label, after⟩ :: steps) after ∧
      ∀ taken ∈ ⟨state, label, after⟩ :: steps, allowed taken :=
  ⟨earlier.1.next step, List.forall_mem_cons.mpr ⟨meets, earlier.2⟩⟩

end Runs

/-! ### Going on -/

/-- The machine can get from one state to another by steps of one's own. -/
inductive Leads (machine : Machine σ ε) (own : ε → Prop) : σ → σ → Prop
  | refl (state : σ) : Leads machine own state state
  | next {state middle after : σ} {label : ε} (mine : own label)
      (step : machine.step state label middle) (later : Leads machine own middle after) :
      Leads machine own state after

section Leads

variable {machine : Machine σ ε} {own : ε → Prop} {state middle after : σ}

theorem Leads.trans (one : machine.Leads own state middle) (two : machine.Leads own middle after) :
    machine.Leads own state after := by
  induction one with
  | refl => exact two
  | next mine step _ ih => exact .next mine step (ih two)

theorem Leads.imp {own' : ε → Prop} (leads : machine.Leads own state after)
    (more : ∀ label, own label → own' label) : machine.Leads own' state after := by
  induction leads with
  | refl => exact .refl _
  | next mine step _ ih => exact .next (more _ mine) step ih

/-- **A run goes on from where it starts.** -/
theorem Run.leads {steps : List (Transition σ ε)} (run : machine.Run steps state) :
    ∃ initial, machine.start initial ∧ machine.Leads (fun _ => True) initial state := by
  induction run with
  | start initial => exact ⟨_, initial, .refl _⟩
  | next _ step ih =>
    obtain ⟨initial, starts, leads⟩ := ih
    exact ⟨initial, starts, leads.trans (.next trivial step (.refl _))⟩

/-- **Going on from a state that a run reaches is a run.** -/
theorem Leads.reachable (leads : machine.Leads own state after)
    (reachable : machine.Reachable state) : machine.Reachable after := by
  induction leads with
  | refl => exact reachable
  | next _ step _ ih =>
    obtain ⟨steps, run⟩ := reachable
    exact ih ⟨_, run.next step⟩

/-- **An invariant is kept by going on.** -/
theorem Leads.keeps {holds : σ → Prop} (leads : machine.Leads own state after)
    (invariant : machine.Invariant holds) (here : holds state) : holds after := by
  induction leads with
  | refl => exact here
  | next _ step _ ih => exact ih (invariant.step _ _ _ here step)

end Leads

/-! ### Refinement -/

/-- Every step of `concrete` is, through `view`, a step of `abstract` or no change at all. The
states that matter are those satisfying `holds`. -/
structure Refinement (concrete : Machine σ ε) (abstract : Machine τ δ) (view : σ → τ)
    (holds : σ → Prop) : Prop where
  start : ∀ state, concrete.start state → abstract.start (view state)
  step : ∀ state label after, holds state → concrete.step state label after →
    view after = view state ∨ ∃ label', abstract.step (view state) label' (view after)

/-- **A refinement reaches only what the abstract machine reaches.** -/
theorem Refinement.reachable {concrete : Machine σ ε} {abstract : Machine τ δ} {view : σ → τ}
    {holds : σ → Prop} (refinement : Refinement concrete abstract view holds)
    (invariant : concrete.Invariant holds) {state : σ} (reachable : concrete.Reachable state) :
    abstract.Reachable (view state) := by
  obtain ⟨steps, run⟩ := reachable
  induction run with
  | start initial => exact ⟨[], .start (refinement.start _ initial)⟩
  | next earlier step ih =>
    obtain ⟨taken, seen⟩ := ih
    rcases refinement.step _ _ _ (invariant.of_run earlier) step with same | ⟨label', step'⟩
    · exact ⟨taken, by rw [same]; exact seen⟩
    · exact ⟨_, seen.next step'⟩

/-- **It goes on only as the abstract machine goes on.** -/
theorem Refinement.leads {concrete : Machine σ ε} {abstract : Machine τ δ} {view : σ → τ}
    {holds : σ → Prop} (refinement : Refinement concrete abstract view holds)
    (invariant : concrete.Invariant holds) {own : ε → Prop} {state after : σ}
    (leads : concrete.Leads own state after) (here : holds state) :
    abstract.Leads (fun _ => True) (view state) (view after) := by
  induction leads with
  | refl => exact .refl _
  | next _ step _ ih =>
    have later := ih (invariant.step _ _ _ here step)
    rcases refinement.step _ _ _ here step with same | ⟨_, step'⟩
    · rw [same] at later
      exact later
    · exact .next trivial step' later

end Machine

end Codexec.Library
