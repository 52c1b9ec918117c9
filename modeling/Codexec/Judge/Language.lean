/-
**The language registry.**

A registry holds only languages that passed the load-time checks, and says so in a field: a plain
source file name, commands with an `argv`, a time multiplier of at least one. The multiplier is a
finite `f64`, so its value is a rational number; `none` in a parsed table stands for infinities and
NaN.
-/

import Codexec.Judge.Sandbox
import Mathlib.Data.Rat.Floor

namespace Codexec

/-- One command (compile or run) with its environment. -/
structure Step where
  argv : List String
  env : List (String × String) := []
  dirs : List String := []
  /-- Overrides the default process limit. -/
  processes : Option Nat := none
  syscallFlags : Option Nat := none
  deriving DecidableEq

/-- A language as the registry file gives it. -/
structure LanguageTable where
  displayName : String
  sourceFile : String
  compile : Option Step := none
  run : Step
  timeMultiplier : Option ℚ := some 1
  addressSpaceLimit : Bool := true

structure Language where
  id : String
  displayName : String
  /-- File name the submitted source is written to inside the box. -/
  sourceFile : String
  compile : Option Step
  run : Step
  timeMultiplier : ℚ
  addressSpaceLimit : Bool
  deriving DecidableEq

structure LanguageError where
  id : String
  reason : String
  deriving DecidableEq

/-- What the load-time checks guarantee. -/
structure Language.Accepted (id : String) (lang : Language) : Prop where
  id : lang.id = id
  sourceFile : validateFileName lang.sourceFile = .ok ()
  run : lang.run.argv ≠ []
  compile : ∀ step, lang.compile = some step → step.argv ≠ []
  timeMultiplier : 1 ≤ lang.timeMultiplier

/-- Languages under their ids, all of them accepted. -/
structure LanguageRegistry where
  languages : List (String × Language)
  accepted : ∀ entry ∈ languages, entry.2.Accepted entry.1

namespace LanguageRegistry

/-- The checks on one entry. -/
def check [Host] (id : String) (table : LanguageTable) :
    Except LanguageError {lang : Language // lang.Accepted id} :=
  match name : validateFileName table.sourceFile with
  | .error e => .error ⟨id, "source_file: " ++ e.display⟩
  | .ok () =>
    if run : table.run.argv = [] then .error ⟨id, "run.argv is empty"⟩
    else if compile : ∃ step ∈ table.compile, step.argv = [] then
      .error ⟨id, "compile.argv is empty"⟩
    else
      match table.timeMultiplier with
      | none => .error ⟨id, "time_multiplier must be >= 1.0"⟩
      | some multiplier =>
        if least : 1 ≤ multiplier then
          .ok ⟨⟨id, table.displayName, table.sourceFile, table.compile, table.run, multiplier,
              table.addressSpaceLimit⟩,
            ⟨rfl, name, run, fun step found none => compile ⟨step, found, none⟩, least⟩⟩
        else .error ⟨id, "time_multiplier must be >= 1.0"⟩

/-- `LanguageRegistry::from_toml` on the parsed tables, in key order. -/
def fromToml [Host] : List (String × LanguageTable) → Except LanguageError LanguageRegistry
  | [] => .ok ⟨[], fun _ member => nomatch member⟩
  | (id, table) :: rest =>
    match check id table with
    | .error e => .error e
    | .ok lang =>
      match fromToml rest with
      | .error e => .error e
      | .ok registry =>
        .ok ⟨(id, lang.1) :: registry.languages, fun entry member => by
          rcases List.mem_cons.mp member with rfl | member
          · exact lang.2
          · exact registry.accepted entry member⟩

def get (registry : LanguageRegistry) (id : String) : Option Language :=
  (registry.languages.find? fun entry => entry.1 = id).map Prod.snd

/-- **Every language the registry hands out passed the checks.** -/
theorem get_accepted {registry : LanguageRegistry} {id : String} {lang : Language}
    (found : registry.get id = some lang) : lang.Accepted id := by
  obtain ⟨entry, stored, rfl⟩ := Option.map_eq_some_iff.mp found
  have same : entry.1 = id := by simpa using List.find?_some stored
  rw [← same]
  exact registry.accepted entry (List.mem_of_find?_eq_some stored)

end LanguageRegistry

end Codexec
