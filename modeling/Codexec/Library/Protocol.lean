/-
**Protocols: which calls a program may make, and when.**

A `Protocol` is a monitor of calls: which ones it permits in a state, and the state after an answer.
A program `Obeys` a protocol when it makes only permitted calls, whatever the answers, and returns
values that fit the state it returns in. The rules are:

* `Obeys.bind` — a sequence obeys a protocol if its parts do, one after the other.
* `Obeys.through` — what obeys a monitor obeys any coarser view of it.
* `Obeys.of_follows` — what is left of a program obeys the protocol, in the state of the monitor.
* `Obeys.of_returns` — after a run that has returned, every call of the transcript was permitted and
  the value fits.
-/

import Codexec.Library.Program

namespace Codexec.Library

/-- A monitor of the calls `E`. -/
structure Protocol (E : Type) (R : E → Type) (σ : Type) where
  permits : σ → E → Prop
  step : σ → (request : E) → R request → σ

namespace Protocol

variable {E : Type} {R : E → Type} {σ α β : Type} (protocol : Protocol E R σ)

/-- The state of the monitor after a transcript. -/
def after (state : σ) : List (Program.Exchange R) → σ
  | [] => state
  | ⟨request, answer⟩ :: rest => after (protocol.step state request answer) rest

/-- Every call of the transcript is permitted. -/
def Accepts (state : σ) : List (Program.Exchange R) → Prop
  | [] => True
  | ⟨request, answer⟩ :: rest =>
    protocol.permits state request ∧ Accepts (protocol.step state request answer) rest

variable {protocol} {state : σ}

theorem accepts_append {before later : List (Program.Exchange R)} :
    protocol.Accepts state (before ++ later) ↔
      protocol.Accepts state before ∧ protocol.Accepts (protocol.after state before) later := by
  induction before generalizing state with
  | nil => exact ⟨fun accepts => ⟨trivial, accepts⟩, And.right⟩
  | cons _ _ ih => exact (and_congr_right fun _ => ih).trans and_assoc.symm

end Protocol

namespace Program

variable {E : Type} {R : E → Type} {σ α β : Type} {protocol : Protocol E R σ}

/-- Whatever the answers, every call is permitted, and the value fits the last state. -/
inductive Obeys (protocol : Protocol E R σ) (fits : σ → α → Prop) : σ → Program E R α → Prop
  | pure {state : σ} {value : α} (ends : fits state value) : Obeys protocol fits state (.pure value)
  | call {state : σ} {request : E} {next : R request → Program E R α}
      (permitted : protocol.permits state request)
      (later : ∀ answer, Obeys protocol fits (protocol.step state request answer) (next answer)) :
      Obeys protocol fits state (.call request next)

namespace Obeys

variable {fits : σ → α → Prop} {state : σ} {program rest : Program E R α}
  {transcript : List (Exchange R)}

/-- **A sequence obeys a protocol if its parts do.** -/
theorem bind {between : σ → β → Prop} {first : Program E R β} {second : β → Program E R α}
    (one : Obeys protocol between state first)
    (two : ∀ after value, between after value → Obeys protocol fits after (second value)) :
    Obeys protocol fits state (first.bind second) := by
  induction one with
  | pure ends => exact two _ _ ends
  | call permitted _ ih => exact .call permitted ih

theorem mono {weaker : σ → α → Prop} (obeys : Obeys protocol fits state program)
    (weaken : ∀ after value, fits after value → weaker after value) :
    Obeys protocol weaker state program := by
  induction obeys with
  | pure ends => exact .pure (weaken _ _ ends)
  | call permitted _ ih => exact .call permitted ih

/-- **A coarser monitor is obeyed as well.** -/
theorem through {τ : Type} {coarse : Protocol E R τ} {fits' : τ → α → Prop} (view : σ → τ)
    (permits : ∀ before call, protocol.permits before call → coarse.permits (view before) call)
    (steps : ∀ before call answer, protocol.permits before call →
      coarse.step (view before) call answer = view (protocol.step before call answer))
    (ends : ∀ after value, fits after value → fits' (view after) value)
    (obeys : Obeys protocol fits state program) : Obeys coarse fits' (view state) program := by
  induction obeys with
  | pure end' => exact .pure (ends _ _ end')
  | call permitted _ ih =>
    refine .call (permits _ _ permitted) fun answer => ?_
    rw [steps _ _ _ permitted]
    exact ih answer

/-- The next call is permitted, and what follows it obeys. -/
theorem of_call {request : E} {next : R request → Program E R α}
    (obeys : Obeys protocol fits state (.call request next)) :
    protocol.permits state request ∧
      ∀ answer, Obeys protocol fits (protocol.step state request answer) (next answer) := by
  cases obeys with
  | call permitted later => exact ⟨permitted, later⟩

theorem of_pure {value : α} (obeys : Obeys protocol fits state (.pure value)) :
    fits state value := by
  cases obeys with
  | pure ends => exact ends

/-- **What is left of a program obeys, and what it has called was permitted.** -/
theorem of_follows (obeys : Obeys protocol fits state program)
    (follows : Follows program transcript rest) :
    protocol.Accepts state transcript ∧
      Obeys protocol fits (protocol.after state transcript) rest := by
  induction follows generalizing state with
  | refl => exact ⟨trivial, obeys⟩
  | call _ ih =>
    obtain ⟨permitted, later⟩ := obeys.of_call
    obtain ⟨accepts, left⟩ := ih (later _)
    exact ⟨⟨permitted, accepts⟩, left⟩

/-- **A run that has returned has kept to the protocol.** -/
theorem of_returns {value : α} (obeys : Obeys protocol fits state program)
    (follows : Follows program transcript (.pure value)) :
    protocol.Accepts state transcript ∧ fits (protocol.after state transcript) value := by
  obtain ⟨accepts, left⟩ := obeys.of_follows follows
  exact ⟨accepts, left.of_pure⟩

end Obeys

end Program

end Codexec.Library
