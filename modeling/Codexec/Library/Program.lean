/-
**Programs that call an environment.**

A `Program` either returns a value or makes a call and goes on with the answer. Nothing is assumed
of the environment: the answers of one call are all the values of its answer type, so a statement
about every way a program can go is a statement about every environment.

Two ways to run a program are used. `Follows p transcript q` says that after the exchanges of
`transcript` the program `p` has become `q`; it is the small-step reading, for a program that is
interleaved with others. `run environment history p` lets an environment answer, whose answers are
a function of the calls made so far; it returns the value and all the calls (`follows_transcript`
connects the two).

Two relations compare the calls of programs. `Lockstep` programs make the same calls whatever the
answers are (`Lockstep.run`); `Overlap` programs do so until one of them stops, so the calls of one
are a prefix of the calls of the other (`Overlap.run`).
-/

import Mathlib.Data.List.Infix

namespace Codexec.Library

/-- A program over the calls `E`, where the answer to a call `request` has type `R request`. -/
inductive Program (E : Type) (R : E → Type) (α : Type) : Type
  | pure (value : α) : Program E R α
  | call (request : E) (next : R request → Program E R α) : Program E R α

namespace Program

variable {E : Type} {R : E → Type} {α β γ : Type}

/-- Sequencing. -/
def bind : Program E R α → (α → Program E R β) → Program E R β
  | .pure value, rest => rest value
  | .call request next, rest => .call request fun answer => (next answer).bind rest

instance : Monad (Program E R) where
  pure := .pure
  bind := bind

/-- One call, whose answer is the value. -/
def ask (request : E) : Program E R (R request) := .call request .pure

/-! ### Small steps -/

/-- A call together with its answer. -/
abbrev Exchange (R : E → Type) : Type := Σ request : E, R request

/-- `Follows program transcript rest`: after these exchanges `program` has become `rest`. -/
inductive Follows : Program E R α → List (Exchange R) → Program E R α → Prop
  | refl (program : Program E R α) : Follows program [] program
  | call {request : E} {next : R request → Program E R α} {answer : R request}
      {transcript : List (Exchange R)} {rest : Program E R α}
      (later : Follows (next answer) transcript rest) :
      Follows (.call request next) (⟨request, answer⟩ :: transcript) rest

namespace Follows

variable {program rest : Program E R α} {transcript : List (Exchange R)}

/-- One more exchange. -/
theorem snoc {request : E} {next : R request → Program E R α}
    (follows : Follows program transcript (.call request next)) (answer : R request) :
    Follows program (transcript ++ [⟨request, answer⟩]) (next answer) := by
  generalize same : Program.call request next = middle at follows
  induction follows with
  | refl =>
    subst same
    exact .call (.refl _)
  | call _ ih => exact .call (ih same)

theorem of_pure {value : α} (follows : Follows (.pure value) transcript rest) :
    transcript = [] ∧ rest = .pure value := by
  cases follows
  exact ⟨rfl, rfl⟩

/-- **The parts of a sequence run one after the other.** -/
theorem bind {first : Program E R β} {second : β → Program E R α} {middle : β} {value : α}
    {before after : List (Exchange R)} (one : Follows first before (.pure middle))
    (two : Follows (second middle) after (.pure value)) :
    Follows (first.bind second) (before ++ after) (.pure value) := by
  generalize ended : Program.pure middle = returned at one
  induction one with
  | refl =>
    subst ended
    exact two
  | call _ ih => exact .call (ih ended)

/-- **A sequence that has returned has run its parts one after the other.** -/
theorem of_bind {first : Program E R β} {second : β → Program E R α} {value : α}
    (follows : Follows (first.bind second) transcript (.pure value)) :
    ∃ before after middle, transcript = before ++ after ∧
      Follows first before (.pure middle) ∧ Follows (second middle) after (.pure value) := by
  induction first generalizing transcript with
  | pure middle => exact ⟨[], transcript, middle, rfl, .refl _, follows⟩
  | call request next ih =>
    cases follows with
    | call later =>
      obtain ⟨before, after, middle, rfl, one, two⟩ := ih _ later
      exact ⟨_ :: before, after, middle, rfl, .call one, two⟩

/-- A last call whose answer is dropped may be answered otherwise. -/
theorem last_ignored {first : Program E R β} {finish : β → α} {request : E}
    {before : List (Exchange R)} {answer : R request} {value : α} (answer' : R request)
    (follows : Follows (first.bind fun middle => .call request fun _ => .pure (finish middle))
      (before ++ [⟨request, answer⟩]) (.pure value)) :
    Follows (first.bind fun middle => .call request fun _ => .pure (finish middle))
      (before ++ [⟨request, answer'⟩]) (.pure value) := by
  obtain ⟨one, two, middle, same, ran, last⟩ := follows.of_bind
  cases last with
  | call later =>
    obtain ⟨rfl, rest⟩ := later.of_pure
    obtain ⟨rfl, -⟩ := List.append_inj' same rfl
    rw [rest]
    exact ran.bind (.call (.refl _))

end Follows

/-! ### Environments -/

/-- The answers of an environment are a function of the calls made so far. -/
abbrev Environment (R : E → Type) : Type := List E → (request : E) → R request

/-- The value a program returns in an environment, and all the calls. -/
def run (environment : Environment R) : List E → Program E R α → α × List E
  | history, .pure value => (value, history)
  | history, .call request next =>
    run environment (history ++ [request]) (next (environment history request))

/-- The exchanges of such a run. -/
def transcript (environment : Environment R) : List E → Program E R α → List (Exchange R)
  | _, .pure _ => []
  | history, .call request next =>
    ⟨request, environment history request⟩ ::
      transcript environment (history ++ [request]) (next (environment history request))

theorem run_bind (environment : Environment R) (history : List E) (first : Program E R α)
    (second : α → Program E R β) :
    run environment history (first.bind second) =
      run environment (run environment history first).2
        (second (run environment history first).1) := by
  induction first generalizing history with
  | pure value => rfl
  | call request next ih => exact ih _ _

/-- **A run is one way to follow the program.** -/
theorem follows_transcript (environment : Environment R) (history : List E)
    (program : Program E R α) :
    Follows program (transcript environment history program)
      (.pure (run environment history program).1) := by
  induction program generalizing history with
  | pure value => exact .refl _
  | call request next ih => exact .call (ih _ _)

/-- The exchanges of a run have the answers of the environment. -/
theorem mem_transcript {environment : Environment R} {history : List E} {program : Program E R α}
    {exchange : Exchange R} (inside : exchange ∈ transcript environment history program) :
    ∃ earlier, exchange = ⟨exchange.1, environment earlier exchange.1⟩ := by
  induction program generalizing history with
  | pure value => exact absurd inside List.not_mem_nil
  | call request next ih =>
    rcases List.mem_cons.mp inside with rfl | inside
    · exact ⟨history, rfl⟩
    · exact ih _ inside

/-- The calls only grow. -/
theorem run_history (environment : Environment R) (history : List E) (program : Program E R α) :
    history <+: (run environment history program).2 := by
  induction program generalizing history with
  | pure value => exact List.prefix_rfl
  | call request next ih => exact (List.prefix_append _ _).trans (ih _ _)

/-! ### Permitted answers -/

/-- Which answers a call may get after a history of calls: a nondeterministic environment. -/
abbrev Answers (R : E → Type) : Type := List E → (request : E) → R request → Prop

/-- Every answer of the transcript is a permitted one. -/
def Permitted (allows : Answers R) : List E → List (Exchange R) → Prop
  | _, [] => True
  | history, ⟨request, answer⟩ :: rest =>
    allows history request answer ∧ Permitted allows (history ++ [request]) rest

/-- **With one permitted answer for every call there is one way to follow a program.** -/
theorem follows_unique {allows : Answers R}
    (unique : ∀ history request first second, allows history request first →
      allows history request second → first = second)
    {program : Program E R α} {history : List E} {one two : List (Exchange R)} {first second : α}
    (permittedOne : Permitted allows history one) (permittedTwo : Permitted allows history two)
    (followsOne : Follows program one (.pure first))
    (followsTwo : Follows program two (.pure second)) : one = two ∧ first = second := by
  induction program generalizing history one two with
  | pure value =>
    obtain ⟨rfl, same⟩ := followsOne.of_pure
    obtain ⟨rfl, same'⟩ := followsTwo.of_pure
    cases same
    cases same'
    exact ⟨rfl, rfl⟩
  | call request next ih =>
    cases followsOne with
    | call laterOne =>
      cases followsTwo with
      | call laterTwo =>
        cases unique _ _ _ _ permittedOne.1 permittedTwo.1
        obtain ⟨rfl, rfl⟩ := ih _ permittedOne.2 permittedTwo.2 laterOne laterTwo
        exact ⟨rfl, rfl⟩

/-! ### Every call of a program -/

/-- Whatever the answers, every call satisfies `holds`. -/
inductive AllCalls (holds : E → Prop) : Program E R α → Prop
  | pure (value : α) : AllCalls holds (.pure value)
  | call {request : E} {next : R request → Program E R α} (here : holds request)
      (later : ∀ answer, AllCalls holds (next answer)) : AllCalls holds (.call request next)

namespace AllCalls

variable {holds : E → Prop}

theorem bind {first : Program E R α} {second : α → Program E R β} (one : AllCalls holds first)
    (two : ∀ value, AllCalls holds (second value)) : AllCalls holds (first.bind second) := by
  induction one with
  | pure value => exact two value
  | call here _ ih => exact .call here ih

/-- **Every call of a run satisfies it**, and every call still to come. -/
theorem of_follows {program rest : Program E R α} {transcript : List (Exchange R)}
    (all : AllCalls holds program) (follows : Follows program transcript rest) :
    (∀ exchange ∈ transcript, holds exchange.1) ∧ AllCalls holds rest := by
  induction follows with
  | refl => exact ⟨fun _ inside => absurd inside List.not_mem_nil, all⟩
  | call _ ih =>
    cases all with
    | call here later =>
      obtain ⟨past, left⟩ := ih (later _)
      refine ⟨fun exchange inside => ?_, left⟩
      rcases List.mem_cons.mp inside with rfl | inside
      · exact here
      · exact past exchange inside

end AllCalls

/-! ### Two programs side by side -/

/-- Whatever the answers, the two programs make the same calls, and return related values. -/
inductive Lockstep (related : α → β → Prop) : Program E R α → Program E R β → Prop
  | pure {first : α} {second : β} (values : related first second) :
      Lockstep related (.pure first) (.pure second)
  | call {request : E} {next : R request → Program E R α} {next' : R request → Program E R β}
      (later : ∀ answer, Lockstep related (next answer) (next' answer)) :
      Lockstep related (.call request next) (.call request next')

/-- Whatever the answers, the two programs make the same calls until one of them stops. -/
inductive Overlap : Program E R α → Program E R β → Prop
  | left (value : α) (other : Program E R β) : Overlap (.pure value) other
  | right (other : Program E R α) (value : β) : Overlap other (.pure value)
  | call {request : E} {next : R request → Program E R α} {next' : R request → Program E R β}
      (later : ∀ answer, Overlap (next answer) (next' answer)) :
      Overlap (.call request next) (.call request next')

section Relations

variable {related : α → β → Prop} {first : Program E R α} {second : Program E R β}

/-- **Programs in lockstep make the same calls in every environment.** -/
theorem Lockstep.run (lockstep : Lockstep related first second) (environment : Environment R)
    (history : List E) :
    related (Program.run environment history first).1
        (Program.run environment history second).1 ∧
      (Program.run environment history first).2 = (Program.run environment history second).2 := by
  induction lockstep generalizing history with
  | pure values => exact ⟨values, rfl⟩
  | call _ ih => exact ih _ _

/-- Lockstep is kept by sequencing. -/
theorem Lockstep.bind {α' β' : Type} {related' : α' → β' → Prop}
    (lockstep : Lockstep related first second) {rest : α → Program E R α'}
    {rest' : β → Program E R β'}
    (later : ∀ one two, related one two → Lockstep related' (rest one) (rest' two)) :
    Lockstep related' (first.bind rest) (second.bind rest') := by
  induction lockstep with
  | pure values => exact later _ _ values
  | call _ ih => exact .call ih

/-- **The calls of one of two overlapping programs are a prefix of the other's.** -/
theorem Overlap.run (overlap : Overlap first second) (environment : Environment R)
    (history : List E) :
    (Program.run environment history first).2 <+: (Program.run environment history second).2 ∨
      (Program.run environment history second).2 <+:
        (Program.run environment history first).2 := by
  induction overlap generalizing history with
  | left value other => exact Or.inl (run_history _ _ _)
  | right other value => exact Or.inr (run_history _ _ _)
  | call _ ih => exact ih _ _

/-- Overlap is kept when what follows makes no more calls. -/
theorem Overlap.map {α' β' : Type} (overlap : Overlap first second) (finish : α → α')
    (finish' : β → β') :
    Overlap (first.bind fun value => .pure (finish value))
      (second.bind fun value => .pure (finish' value)) := by
  induction overlap with
  | left value other => exact .left _ _
  | right other value => exact .right _ _
  | call _ ih => exact .call ih

end Relations

end Program

end Codexec.Library
