/-
**The life of a box.**

Whatever fails, a judging run acquires a box, writes the source, executes commands until one of the
calls fails, and releases the box as its last call (`Lifecycle`). `custody` is the monitor of the
calls that reach the sandbox; `judge` obeys it, and every transcript it accepts is a life of a box.
So nothing is ever written after code has run, and the backend's refusal to do so never shows.
-/

import Codexec.Judge.Trace
import Codexec.Judge.Isolate
import Codexec.Library.Protocol

namespace Codexec

open Codexec.Library Program

/-- The box of the isolate backend after a call. -/
def IsolateBox.called (self : IsolateBox) : Call → IsolateBox
  | .acquire => self.init
  | .exec spec _ => self.exec spec
  | _ => self

/-- After the calls of a run. -/
def IsolateBox.after (self : IsolateBox) (calls : List (Exchange Call.Answer)) : IsolateBox :=
  calls.foldl (fun box exchange => box.called exchange.1) self

/-! ### The monitor -/

/-- Where the box of a run is. -/
inductive Custody
  | unopened
  | refused (e : SandboxError)
  /-- Acquired. -/
  | opened
  /-- The source is in it, and every command was answered. -/
  | loaded
  /-- A call failed. -/
  | failed (e : SandboxError)
  | released (failure : Option SandboxError)

namespace Custody

def permits (lang : Language) (req : JudgeRequest) : Custody → Call → Prop
  | .unopened, .acquire => True
  | .opened, .writeFile name contents => name = lang.sourceFile ∧ contents = utf8 req.source
  | .loaded, .exec _ _ => True
  | .loaded, .notify _ => True
  | .loaded, .release => True
  | .failed _, .release => True
  | _, _ => False

def step : Custody → (request : Call) → Call.Answer request → Custody
  | .unopened, .acquire, .ok () => .opened
  | .unopened, .acquire, .error e => .refused e
  | .opened, .writeFile _ _, .ok () => .loaded
  | .opened, .writeFile _ _, .error e => .failed e
  | .loaded, .exec _ _, .error e => .failed e
  | .loaded, .release, _ => .released none
  | .failed e, .release, _ => .released (some e)
  | custody, _, _ => custody

/-- What a run returns: an error exactly if a call failed. -/
def Returns : Custody → Except JudgeError JudgeResult → Prop
  | .refused e, value => value = .error (.sandbox e)
  | .released (some e), value => value = .error (.sandbox e)
  | .released none, value => ∃ result, value = .ok result
  | _, _ => False

/-- What the part of a run between acquisition and release returns. -/
def Holds {α : Type} : Custody → Except SandboxError α → Prop
  | .failed e, value => value = .error e
  | .loaded, value => ∃ result, value = .ok result
  | _, _ => False

end Custody

/-- The monitor of the calls that reach the sandbox. -/
def custody (lang : Language) (req : JudgeRequest) : Protocol Call Call.Answer Custody where
  permits := Custody.permits lang req
  step := Custody.step

/-! ### Judging obeys it -/

section Obeys

variable {lang : Language} {req : JudgeRequest} {α : Type}

theorem obeys_told {progress : Bool} {event : Progress} {fits : Custody → α → Prop}
    {program : JudgeM α} (obeys : Obeys (custody lang req) fits .loaded program) :
    Obeys (custody lang req) fits .loaded (told progress event program) := by
  unfold told
  cases progress
  · exact obeys
  · exact .call trivial fun _ => obeys

/-- A command that fails ends the run; after any other it goes on. -/
theorem obeys_exec {spec : ExecSpec} {stdin : Bytes}
    {next : ExecOutcome → JudgeM (Except SandboxError α)}
    (obeys : ∀ out, Obeys (custody lang req) Custody.Holds .loaded (next out)) :
    Obeys (custody lang req) Custody.Holds .loaded (.call (.exec spec stdin) (onAnswer next)) := by
  refine .call trivial fun answer => ?_
  cases answer with
  | error e => exact .pure rfl
  | ok out => exact obeys out

end Obeys

namespace Judge

variable [Host] (self : Judge) {lang : Language} {req : JudgeRequest} {progress : Bool}

theorem runLoop_custody {spec : ExecSpec} {total i : Nat} {results : List TestResult}
    {failedTest : Option String} {tests : List TestCase} :
    Obeys (custody lang req) Custody.Holds .loaded
      (self.runLoop req progress spec total i results failedTest tests).run := by
  induction tests generalizing i results failedTest with
  | nil => exact .pure ⟨_, rfl⟩
  | cons test rest ih =>
    rw [runLoop_cons]
    refine obeys_exec fun out => obeys_told ?_
    split
    · exact .pure ⟨_, rfl⟩
    · exact ih

theorem runTests_custody {compileOutput : Option String} :
    Obeys (custody lang req) Custody.Holds .loaded
      (self.runTests lang req progress compileOutput).run := by
  rw [runTests_run]
  refine obeys_told (self.runLoop_custody.bind fun after answer holds => .pure ?_)
  cases after with
  | loaded =>
    obtain ⟨executed, rfl⟩ := holds
    exact ⟨_, rfl⟩
  | failed e =>
    obtain rfl := holds
    rfl
  | _ => exact holds.elim

theorem judgeInBox_custody :
    Obeys (custody lang req) Custody.Holds .opened (self.judgeInBox lang req progress).run := by
  rw [judgeInBox_run]
  refine .call ⟨rfl, rfl⟩ fun answer => ?_
  cases answer with
  | error e => exact .pure rfl
  | ok written =>
    show Obeys _ _ Custody.loaded (self.afterWrite lang req progress)
    unfold afterWrite
    split
    · exact self.runTests_custody
    · refine obeys_told (obeys_exec fun out => ?_)
      unfold afterCompile
      simp only []
      split
      · exact self.runTests_custody
      · exact .pure ⟨_, rfl⟩

/-- **A run keeps to the monitor.** -/
theorem judge_custody (known : self.languages.get req.language = some lang) :
    Obeys (custody lang req) Custody.Returns .unopened (self.judge req progress) := by
  rw [judge_of_known self req progress known]
  refine .call trivial fun acquired => ?_
  cases acquired with
  | error e => exact .pure rfl
  | ok done =>
    refine self.judgeInBox_custody.bind fun after answer holds => ?_
    cases after with
    | loaded =>
      obtain ⟨result, rfl⟩ := holds
      exact .call trivial fun _ => .pure ⟨result, rfl⟩
    | failed e =>
      obtain rfl := holds
      exact .call trivial fun _ => .pure rfl
    | _ => exact holds.elim

end Judge

/-! ### What the monitor accepts -/

/-- A command that was answered. -/
abbrev Answered : Type := ExecSpec × Bytes × ExecOutcome

def Answered.exchange (run : Answered) : Exchange Call.Answer := ⟨.exec run.1 run.2.1, .ok run.2.2⟩

/-- The calls that reach the sandbox, in order. -/
def sandboxCalls (transcript : List (Exchange Call.Answer)) : List (Exchange Call.Answer) :=
  transcript.filter fun exchange => exchange.1.isSandbox

/-- The writing of the source. -/
def sourceWrite (lang : Language) (req : JudgeRequest) (answer : Except SandboxError Unit) :
    Exchange Call.Answer :=
  ⟨.writeFile lang.sourceFile (utf8 req.source), answer⟩

/-- The life of a box, and what the run returns. -/
inductive Lifecycle (lang : Language) (req : JudgeRequest) :
    List (Exchange Call.Answer) → Except JudgeError JudgeResult → Prop
  | refused (e : SandboxError) :
      Lifecycle lang req [⟨.acquire, .error e⟩] (.error (.sandbox e))
  | unwritten (e : SandboxError) (release : Except SandboxError Unit) :
      Lifecycle lang req
        [⟨.acquire, .ok ()⟩, sourceWrite lang req (.error e), ⟨.release, release⟩]
        (.error (.sandbox e))
  | broken (runs : List Answered) (spec : ExecSpec) (stdin : Bytes) (e : SandboxError)
      (release : Except SandboxError Unit) :
      Lifecycle lang req
        (⟨.acquire, .ok ()⟩ :: sourceWrite lang req (.ok ()) :: (runs.map Answered.exchange ++
          [⟨.exec spec stdin, .error e⟩, ⟨.release, release⟩]))
        (.error (.sandbox e))
  | judged (runs : List Answered) (result : JudgeResult) (release : Except SandboxError Unit) :
      Lifecycle lang req
        (⟨.acquire, .ok ()⟩ :: sourceWrite lang req (.ok ()) :: (runs.map Answered.exchange ++
          [⟨.release, release⟩]))
        (.ok result)

section Accepted

variable {lang : Language} {req : JudgeRequest} {transcript : List (Exchange Call.Answer)}
  {value : Except JudgeError JudgeResult}

/-- Nothing follows where nothing is permitted. -/
theorem nil_of_final {state : Custody} (final : ∀ request, ¬ Custody.permits lang req state request)
    (accepts : (custody lang req).Accepts state transcript) : transcript = [] := by
  cases transcript with
  | nil => rfl
  | cons exchange rest => exact absurd accepts.1 (final exchange.1)

theorem released_final (failure : Option SandboxError) (request : Call) :
    ¬ Custody.permits lang req (.released failure) request := by
  cases request <;> exact id

theorem refused_final (e : SandboxError) (request : Call) :
    ¬ Custody.permits lang req (.refused e) request := by
  cases request <;> exact id

/-- **A box whose call failed is released.** -/
theorem of_failed {e : SandboxError} (accepts : (custody lang req).Accepts (.failed e) transcript)
    (returns : ((custody lang req).after (.failed e) transcript).Returns value) :
    ∃ release, transcript = [⟨.release, release⟩] ∧ value = .error (.sandbox e) := by
  cases transcript with
  | nil => exact absurd returns id
  | cons exchange rest =>
    obtain ⟨request, answer⟩ := exchange
    obtain ⟨permitted, accepts⟩ := accepts
    cases request with
    | release =>
      obtain rfl := nil_of_final (released_final _) accepts
      exact ⟨answer, rfl, returns⟩
    | _ => exact absurd permitted id

/-- **In a loaded box commands are executed until one fails, and the box is released.** -/
theorem of_loaded (accepts : (custody lang req).Accepts .loaded transcript)
    (returns : ((custody lang req).after .loaded transcript).Returns value) :
    ∃ (runs : List Answered) (release : Except SandboxError Unit),
      (sandboxCalls transcript = runs.map Answered.exchange ++ [⟨.release, release⟩] ∧
        ∃ result, value = .ok result) ∨
      ∃ spec stdin e, sandboxCalls transcript = runs.map Answered.exchange ++
          [⟨.exec spec stdin, .error e⟩, ⟨.release, release⟩] ∧
        value = .error (.sandbox e) := by
  induction transcript with
  | nil => exact absurd returns id
  | cons exchange rest ih =>
    obtain ⟨request, answer⟩ := exchange
    obtain ⟨permitted, accepts⟩ := accepts
    cases request with
    | acquire => exact absurd permitted id
    | writeFile name contents => exact absurd permitted id
    | notify event => exact ih accepts returns
    | release =>
      obtain rfl := nil_of_final (released_final _) accepts
      exact ⟨[], answer, Or.inl ⟨rfl, returns⟩⟩
    | exec spec stdin =>
      cases answer with
      | error e =>
        obtain ⟨release, rfl, failed⟩ := of_failed accepts returns
        exact ⟨[], release, Or.inr ⟨spec, stdin, e, rfl, failed⟩⟩
      | ok out =>
        obtain ⟨runs, release, ended⟩ := ih accepts returns
        refine ⟨(spec, stdin, out) :: runs, release, ?_⟩
        rcases ended with ⟨calls, judged⟩ | ⟨spec', stdin', e, calls, failed⟩
        · exact Or.inl ⟨congrArg (_ :: ·) calls, judged⟩
        · exact Or.inr ⟨spec', stdin', e, congrArg (_ :: ·) calls, failed⟩

/-- **An accepted transcript is the life of a box.** -/
theorem lifecycle_of_accepts (accepts : (custody lang req).Accepts .unopened transcript)
    (returns : ((custody lang req).after .unopened transcript).Returns value) :
    Lifecycle lang req (sandboxCalls transcript) value := by
  cases transcript with
  | nil => exact absurd returns id
  | cons exchange rest =>
    obtain ⟨request, acquired⟩ := exchange
    obtain ⟨permitted, accepts⟩ := accepts
    cases request with
    | acquire =>
      cases acquired with
      | error e =>
        obtain rfl := nil_of_final (refused_final _) accepts
        obtain rfl : value = _ := returns
        exact .refused e
      | ok done =>
        cases rest with
        | nil => exact absurd returns id
        | cons exchange rest =>
          obtain ⟨request, written⟩ := exchange
          obtain ⟨permitted, accepts⟩ := accepts
          cases request with
          | writeFile name contents =>
            obtain ⟨rfl, rfl⟩ := permitted
            cases written with
            | error e =>
              obtain ⟨release, rfl, rfl⟩ := of_failed accepts returns
              exact .unwritten e release
            | ok done' =>
              obtain ⟨runs, release, ⟨calls, result, rfl⟩ | ⟨spec, stdin, e, calls, rfl⟩⟩ :=
                of_loaded accepts returns
              · have life : Lifecycle lang req _ _ := .judged runs result release
                rw [← calls] at life
                exact life
              · have life : Lifecycle lang req _ _ := .broken runs spec stdin e release
                rw [← calls] at life
                exact life
          | _ => exact absurd permitted id
    | _ => exact absurd permitted id

/-- Before the source is written no command was executed. -/
theorem unexecuted {state : Custody} {box : IsolateBox}
    (accepts : (custody lang req).Accepts state transcript)
    (before : state = .opened → box.executed = false)
    (early : (custody lang req).after state transcript = .opened) :
    (box.after transcript).executed = false := by
  induction transcript generalizing state box with
  | nil => exact before early
  | cons exchange rest ih =>
    obtain ⟨request, answer⟩ := exchange
    refine ih accepts.2 (fun opened => ?_) early
    have permitted := accepts.1
    cases request with
    | acquire => rfl
    | exec spec stdin =>
      cases state with
      | loaded => cases answer <;> cases opened
      | _ => exact absurd permitted id
    | writeFile name contents =>
      cases state with
      | opened => exact before rfl
      | _ => exact absurd permitted id
    | release =>
      cases state with
      | loaded => cases opened
      | failed e => cases opened
      | _ => exact absurd permitted id
    | notify event =>
      cases state with
      | loaded => cases opened
      | _ => exact absurd permitted id

end Accepted

/-! ### Every run -/

/-- A call that failed, other than the release. -/
def Failed : Exchange Call.Answer → Prop
  | ⟨.acquire, answer⟩ => ∃ e, answer = .error e
  | ⟨.writeFile _ _, answer⟩ => ∃ e, answer = .error e
  | ⟨.exec _ _, answer⟩ => ∃ e, answer = .error e
  | _ => False

/-- **A run returns an error exactly if one of its calls failed.** -/
theorem Lifecycle.error_iff {lang : Language} {req : JudgeRequest}
    {calls : List (Exchange Call.Answer)} {value : Except JudgeError JudgeResult}
    (life : Lifecycle lang req calls value) :
    (∃ e, value = .error e) ↔ ∃ exchange ∈ calls, Failed exchange := by
  cases life with
  | refused e => exact iff_of_true ⟨_, rfl⟩ ⟨_, List.mem_singleton_self _, e, rfl⟩
  | unwritten e release =>
    exact iff_of_true ⟨_, rfl⟩ ⟨sourceWrite lang req (.error e), by simp, e, rfl⟩
  | broken runs spec stdin e release =>
    exact iff_of_true ⟨_, rfl⟩ ⟨⟨.exec spec stdin, .error e⟩, by simp, e, rfl⟩
  | judged runs result release =>
    refine iff_of_false (by simp) ?_
    rintro ⟨exchange, inside, failed⟩
    simp only [List.mem_cons, List.mem_append, List.mem_map, List.not_mem_nil, or_false] at inside
    rcases inside with rfl | rfl | ⟨run, -, rfl⟩ | rfl
    · obtain ⟨e, same⟩ := failed
      cases same
    · obtain ⟨e, same⟩ := failed
      cases same
    · obtain ⟨e, same⟩ := failed
      cases same
    · exact failed

namespace Judge

variable [Host] (self : Judge) (req : JudgeRequest) (progress : Bool)

/-- **What the release answers does not change what the run returns.** -/
theorem follows_any_release {before : List (Exchange Call.Answer)}
    {answer answer' : Except SandboxError Unit} {value : Except JudgeError JudgeResult}
    (follows : Follows (self.judge req progress) (before ++ [⟨.release, answer⟩]) (.pure value)) :
    Follows (self.judge req progress) (before ++ [⟨.release, answer'⟩]) (.pure value) := by
  cases known : self.languages.get req.language with
  | none =>
    rw [judge_of_unknown self req progress known] at follows
    exact absurd follows.of_pure.1 (by simp)
  | some lang =>
    rw [judge_of_known self req progress known] at follows ⊢
    cases before with
    | nil => cases follows
    | cons exchange before =>
      cases follows with
      | call later =>
        refine .call ?_
        rename_i acquired
        cases acquired with
        | error e => exact absurd later.of_pure.1 (by simp)
        | ok done => exact later.last_ignored answer'

/-- **A file is written only before any command was executed.** -/
theorem writes_unused_box {lang : Language} (known : self.languages.get req.language = some lang)
    {before later : List (Exchange Call.Answer)} {name : String} {contents : Bytes}
    {answer : Except SandboxError Unit} {rest : JudgeM (Except JudgeError JudgeResult)}
    (follows : Follows (self.judge req progress)
      (before ++ ⟨.writeFile name contents, answer⟩ :: later) rest) (box : IsolateBox) :
    name = lang.sourceFile ∧ (box.after before).executed = false := by
  obtain ⟨accepts, -⟩ := (self.judge_custody known).of_follows follows
  obtain ⟨early, permitted, -⟩ := Protocol.accepts_append.mp accepts
  cases reached : (custody lang req).after .unopened before with
  | opened =>
    rw [reached] at permitted
    exact ⟨permitted.1, unexecuted early nofun reached⟩
  | _ =>
    rw [reached] at permitted
    exact absurd permitted id

/-- **The life of a box**: nothing happens for an unknown language; for a known one the calls are a
`Lifecycle`, under a file name that passes the check, and the run returns an error exactly if a call
failed, whatever the release answers; and the isolate backend never refuses to write. -/
theorem judge_lifecycle {transcript : List (Exchange Call.Answer)}
    {value : Except JudgeError JudgeResult}
    (follows : Follows (self.judge req progress) transcript (.pure value)) :
    (self.languages.get req.language = none →
      sandboxCalls transcript = [] ∧ value = .error (.unknownLanguage req.language)) ∧
    (∀ lang, self.languages.get req.language = some lang →
      validateFileName lang.sourceFile = .ok () ∧ Lifecycle lang req (sandboxCalls transcript) value ∧
      ((∃ e, value = .error e) ↔ ∃ exchange ∈ sandboxCalls transcript, Failed exchange)) ∧
    (∀ before answer, transcript = before ++ [⟨.release, answer⟩] → ∀ answer',
      Follows (self.judge req progress) (before ++ [⟨.release, answer'⟩]) (.pure value)) ∧
    ∀ before name contents answer later,
      transcript = before ++ ⟨.writeFile name contents, answer⟩ :: later → ∀ box create,
      (IsolateBox.after box before).writeFile name create = create.mapError .io := by
  refine ⟨fun unknown => ?_, fun lang known => ?_, ?_, ?_⟩
  · rw [judge_of_unknown self req progress unknown] at follows
    obtain ⟨rfl, same⟩ := follows.of_pure
    cases same
    exact ⟨rfl, rfl⟩
  · obtain ⟨accepts, returns⟩ := (self.judge_custody known).of_returns follows
    have life := lifecycle_of_accepts accepts returns
    exact ⟨(LanguageRegistry.get_accepted known).sourceFile, life, life.error_iff⟩
  · rintro before answer rfl answer'
    exact self.follows_any_release req progress follows
  · rintro before name contents answer later rfl box create
    cases known : self.languages.get req.language with
    | none =>
      rw [judge_of_unknown self req progress known] at follows
      exact absurd follows.of_pure.1 (by simp)
    | some lang =>
      obtain ⟨rfl, unused⟩ := self.writes_unused_box req progress known follows box
      simp only [IsolateBox.writeFile, (LanguageRegistry.get_accepted known).sourceFile, unused]
      rfl

end Judge

/-- A run whose only command fails. -/
def brokenSandbox : Environment Call.Answer := fun _ request =>
  match request with
  | .acquire => .ok ()
  | .writeFile _ _ => .ok ()
  | .exec _ _ => .error (.backend "isolate failed")
  | .release => .error (.backend "cleanup failed")
  | .notify _ => ()

theorem judge_lifecycle_sample :
    letI := plainHost
    ∃ lang, sampleJudge.languages.get "python" = some lang ∧
      Lifecycle lang (sampleRequest "python" "2\n")
        (sandboxCalls (Program.transcript brokenSandbox []
          (sampleJudge.judge (sampleRequest "python" "2\n") true)))
        (.error (.sandbox (.backend "isolate failed"))) := by
  let host := plainHost
  have known : sampleJudge.languages.get "python" = some python := by decide
  have follows := follows_transcript brokenSandbox []
    (sampleJudge.judge (sampleRequest "python" "2\n") true)
  exact ⟨python, known,
    ((sampleJudge.judge_lifecycle (sampleRequest "python" "2\n") true follows).2.1 python known).2.1⟩

end Codexec
