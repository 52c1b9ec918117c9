/-
**Questions and answers.**

A service takes questions under fresh keys and answers each of them at most once, with an answer
that the question permits. Which answers those are is a parameter; how they are found is no matter
of the service. Questions and answers are never lost or changed (`later_of_leads`), and every
answer is permitted (`permitted`), so whatever refines a service has these properties too.
-/

import Codexec.Library.Machine
import Mathlib.Logic.Function.Basic

namespace Codexec.Library

/-- A question, and its answer once there is one. -/
structure Case (Q A : Type) where
  question : Q
  answer : Option A := none

/-- The cases of a service. -/
abbrev Service (κ Q A : Type) : Type := κ → Option (Case Q A)

namespace Service

variable {κ Q A : Type}

/-- What happens to a service: a question, or some answers at once. -/
inductive Event (κ Q A : Type)
  | pose (key : κ) (question : Q)
  | answer (news : κ → Option A)

/-- The cases with some more answers. -/
def answered (news : κ → Option A) (state : Service κ Q A) : Service κ Q A := fun key =>
  (state key).map fun case => { case with answer := case.answer.or (news key) }

variable [DecidableEq κ] {permits : Q → A → Prop}

inductive Step (permits : Q → A → Prop) : Service κ Q A → Event κ Q A → Service κ Q A → Prop
  | pose {state : Service κ Q A} {key : κ} (question : Q) (fresh : state key = none) :
      Step permits state (.pose key question) (Function.update state key (some { question }))
  /-- Only open questions are answered. -/
  | answer {state : Service κ Q A} {news : κ → Option A}
      (meets : ∀ key answer, news key = some answer →
        ∃ question, state key = some { question } ∧ permits question answer) :
      Step permits state (.answer news) (state.answered news)

/-- The service, without questions at first. -/
def machine (permits : Q → A → Prop) : Machine (Service κ Q A) (Event κ Q A) where
  start state := state = fun _ => none
  step := Step permits

/-- Nothing that was there is lost or changed. -/
def Later (state after : Service κ Q A) : Prop :=
  ∀ key case, state key = some case → ∃ case', after key = some case' ∧
    case'.question = case.question ∧ ∀ answer, case.answer = some answer →
      case'.answer = some answer

omit [DecidableEq κ] in
theorem Later.trans {state middle after : Service κ Q A} (one : Later state middle)
    (two : Later middle after) : Later state after := by
  intro key case here
  obtain ⟨case', here', question, answer⟩ := one key case here
  obtain ⟨case'', here'', question', answer'⟩ := two key case' here'
  exact ⟨case'', here'', question'.trans question, fun given same => answer' _ (answer _ same)⟩

theorem Step.later {state after : Service κ Q A} {event : Event κ Q A}
    (step : Step permits state event after) : Later state after := by
  intro key case here
  cases step with
  | @pose posed question fresh =>
    have other : key ≠ posed := fun same => by
      rw [same, fresh] at here
      cases here
    exact ⟨case, by rw [Function.update_of_ne other, here], rfl, fun _ given => given⟩
  | @answer news meets =>
    refine ⟨{ case with answer := case.answer.or (news key) }, ?_, rfl, fun answer given => ?_⟩
    · rw [answered, here]
      rfl
    · rw [given]
      rfl

/-- **Questions and answers stay.** -/
theorem later_of_leads {own : Event κ Q A → Prop} {state after : Service κ Q A}
    (leads : (machine permits).Leads own state after) : Later state after := by
  induction leads with
  | refl state => exact fun key case here => ⟨case, here, rfl, fun _ given => given⟩
  | next _ step _ ih => exact (Step.later step).trans ih

/-- Every answer is a permitted one. -/
def Permitted (permits : Q → A → Prop) (state : Service κ Q A) : Prop :=
  ∀ key question answer, state key = some ⟨question, some answer⟩ → permits question answer

/-- **Answers are permitted.** -/
theorem permitted_invariant : (machine (κ := κ) permits).Invariant (Permitted permits) where
  start := by
    rintro _ rfl key question answer here
    cases here
  step := by
    intro state event after permitted step key question answer here
    cases step with
    | @pose posed question' fresh =>
      by_cases same : key = posed
      · rw [same, Function.update_self] at here
        cases here
      · rw [Function.update_of_ne same] at here
        exact permitted key question answer here
    | @answer news meets =>
      unfold answered at here
      obtain ⟨case, held, now⟩ := Option.map_eq_some_iff.mp here
      obtain ⟨question', given⟩ := case
      cases given with
      | some old =>
        obtain ⟨rfl, told⟩ := Case.mk.inj now
        obtain rfl : old = answer := Option.some.inj told
        exact permitted key _ old held
      | none =>
        obtain ⟨rfl, told⟩ := Case.mk.inj now
        obtain ⟨question, unanswered, permits⟩ := meets key answer told
        cases held.symm.trans unanswered
        exact permits

end Service

end Codexec.Library
