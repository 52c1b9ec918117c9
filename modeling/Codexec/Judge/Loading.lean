/-
**Loading in any order.**

A directory is enumerated in an order of its own. The loader sorts the stems it finds
(`testNames_perm`) and reads the files by name, so the problem does not depend on that order
(`load_reordered`); and the problems of a root have different slugs and go into an ordered map, so
the set does not depend on the order of the root either (`ProblemSet.load_reordered`).
-/

import Codexec.Judge.Problem
import Codexec.Library.Ordered
import Mathlib.Data.List.Perm.Basic

namespace Codexec

open Codexec.Library

/-- Two enumerations: both fail in the same way, or list the same. -/
inductive Enumerated {α : Type} (same : List α → List α → Prop) :
    Except String (List α) → Except String (List α) → Prop
  | failed (source : String) : Enumerated same (.error source) (.error source)
  | listed {entries entries' : List α} (both : same entries entries') :
      Enumerated same (.ok entries) (.ok entries')

/-- Results are told apart by their values, without what is known of these. -/
theorem map_val_injective {ε α : Type} {holds : α → Prop} :
    Function.Injective (Except.map Subtype.val : Except ε {x // holds x} → Except ε α) := by
  rintro (e | x) (e' | x') same
  · exact congrArg Except.error (Except.error.inj same)
  · cases same
  · cases same
  · exact congrArg Except.ok (Subtype.ext (Except.ok.inj same))

/-! ### A problem -/

/-- The same directory, with `tests/` enumerated in another order. -/
structure ProblemDir.Reordered (dir dir' : ProblemDir) : Prop where
  path : dir'.path = dir.path
  fileName : dir'.fileName = dir.fileName
  manifest : dir'.manifest = dir.manifest
  statement : dir'.statement = dir.statement
  read : dir'.read = dir.read
  entries : Enumerated List.Perm dir.entries dir'.entries

namespace ProblemDir

theorem Reordered.slug {dir dir' : ProblemDir} (reordered : dir.Reordered dir') :
    dir'.slug = dir.slug := congrArg (Option.getD · "") reordered.fileName

/-- **Stems are sorted, in whatever order they are found.** -/
theorem testNames_perm {entries entries' : List (Option String)} (perm : entries.Perm entries') :
    testNames entries' = testNames entries := by
  have stems := (perm.filterMap id).filterMap stemOf
  have sorted (list : List (Option String)) : (testNames list).Pairwise (· ≤ ·) :=
    List.pairwise_insertionSort _ _
  refine List.Perm.eq_of_pairwise' (sorted entries') (sorted entries) ?_
  exact (List.perm_insertionSort _ _).trans
    (stems.symm.trans (List.perm_insertionSort _ _).symm)

variable [Host] {dir dir' : ProblemDir}

/-- The tests of the directory, without what is known of them. -/
theorem loadTests_val (dir : ProblemDir) :
    dir.loadTests.map Subtype.val =
      match dir.entries with
      | .error source => .error (.io (dir.path ++ "/tests") source)
      | .ok entries =>
        if testNames entries = [] then .error (.invalid dir.slug "no tests/*.in files")
        else dir.readTests (testNames entries) := by
  unfold loadTests
  split
  · rename_i source failed
    rw [failed]
    rfl
  · rename_i entries listed
    conv_rhs => rw [listed]
    simp only []
    by_cases none : testNames entries = []
    · rw [dif_pos none, if_pos none]
      rfl
    · rw [dif_neg none, if_neg none]
      split
      · rename_i e failed
        rw [failed]
        rfl
      · rename_i tests read
        exact read.symm

theorem loadTests_reordered (reordered : dir.Reordered dir') : dir'.loadTests = dir.loadTests := by
  apply map_val_injective
  rw [loadTests_val, loadTests_val]
  have both := reordered.entries
  generalize dir.entries = found, dir'.entries = found' at both
  cases both with
  | failed source => simp only [reordered.path]
  | listed perm =>
    simp only [testNames_perm perm, reordered.slug,
      readTests_congr reordered.path reordered.fileName reordered.read]

/-- Each test holds what its two files hold. -/
theorem readTests_files {names : List String} {tests : List TestCase}
    (read : dir.readTests names = .ok tests) :
    ∀ test ∈ tests, dir.read (test.name ++ ".in") = .ok test.input ∧
      ∃ answer, dir.read (test.name ++ ".out") = .ok answer ∧ test.expected = some answer := by
  induction names generalizing tests with
  | nil =>
    cases read
    exact fun _ inside => absurd inside List.not_mem_nil
  | cons name rest ih =>
    unfold readTests at read
    split at read
    · cases read
    · rename_i input found
      split at read
      · cases read
      · rename_i answer found'
        split at read
        · cases read
        · rename_i others later
          cases read
          intro test inside
          rcases List.mem_cons.mp inside with rfl | inside
          · exact ⟨found, answer, found', rfl⟩
          · exact ih later test inside

end ProblemDir

namespace Problem

section Load

variable [Host] {sha256 : Bytes → Bytes} {dir dir' : ProblemDir} {problem : Problem}

/-- **A problem does not depend on the order of its directory.** -/
theorem load_reordered (reordered : dir.Reordered dir') :
    load sha256 dir' = load sha256 dir := by
  simp only [load, contents, reordered.slug, reordered.manifest, reordered.statement,
    ProblemDir.loadTests_reordered reordered]

/-- What is checked before a problem is loaded. -/
structure Checked (dir : ProblemDir) (manifest : Manifest) (tests : List TestCase) : Prop where
  slug : dir.slug ≠ "" ∧ (utf8 dir.slug).all ProblemDir.slugByte = true
  parsed : dir.manifest = .ok manifest
  read : dir.loadTests.map Subtype.val = .ok tests
  samples : ∀ sample ∈ manifest.samples, sample ∈ tests.map TestCase.name
  limits : manifest.timeLimitMs ≠ 0 ∧ manifest.memoryLimitMb ≠ 0

theorem checked_of_contents {manifest : Manifest}
    {tests : {tests : List TestCase // LoadedTests tests}}
    (found : contents dir = .ok (manifest, tests)) : Checked dir manifest tests.1 := by
  unfold contents at found
  split at found
  · cases found
  · rename_i slug
    rw [not_or, not_not] at slug
    split at found
    · cases found
    · rename_i manifest' parsed
      split at found
      · cases found
      · rename_i tests' loaded
        split at found
        · cases found
        · rename_i known
          split at found
          · cases found
          · rename_i limits
            rw [not_or] at limits
            cases found
            refine ⟨slug, parsed, by rw [loaded]; rfl, fun sample inside => ?_, limits⟩
            simpa using List.find?_eq_none.mp known sample inside

/-- What a loaded problem has from its directory. -/
theorem load_checked (loads : load sha256 dir = .ok problem) : ∃ manifest,
    Checked dir manifest problem.tests ∧ problem.slug = dir.slug ∧
      problem.timeLimitMs = manifest.timeLimitMs ∧
      problem.memoryLimitKb = manifest.memoryLimitMb * 1024 ∧
      problem.sampleNames = manifest.samples := by
  obtain ⟨manifest, found, slug, time, memory, -, samples⟩ := contents_of_load loads
  exact ⟨manifest, checked_of_contents found, slug, time, memory, samples⟩

/-- The tests are those of the names in the directory. -/
theorem Checked.listed {manifest : Manifest} {tests : List TestCase}
    (checked : Checked dir manifest tests) : ∃ entries, dir.entries = .ok entries ∧
      dir.readTests (ProblemDir.testNames entries) = .ok tests := by
  have found := checked.read
  rw [ProblemDir.loadTests_val] at found
  split at found
  · cases found
  · rename_i entries listed
    split at found
    · cases found
    · exact ⟨entries, listed, found⟩

/-- The tests of a problem are those of its directory. -/
structure TestsOf (dir : ProblemDir) (entries : List (Option String)) (problem : Problem) :
    Prop where
  nonempty : problem.tests ≠ []
  increasing : (problem.tests.map TestCase.name).Pairwise (· < ·)
  once : ∀ stem, stem ≠ "" → some (stem ++ ".in") ∈ entries →
    (problem.tests.map TestCase.name).count stem = 1
  found : ∀ test ∈ problem.tests, test.name ≠ "" ∧ some (test.name ++ ".in") ∈ entries
  files : ∀ test ∈ problem.tests, dir.read (test.name ++ ".in") = .ok test.input ∧
    ∃ answer, dir.read (test.name ++ ".out") = .ok answer ∧ test.expected = some answer
  samples : ∀ sample ∈ problem.sampleNames, sample ∈ problem.tests.map TestCase.name

/-- **A problem has one test for each stem in its directory.** -/
theorem load_tests (loads : load sha256 dir = .ok problem) :
    ∃ entries, dir.entries = .ok entries ∧ TestsOf dir entries problem := by
  obtain ⟨manifest, checked, -, -, -, samples⟩ := load_checked loads
  obtain ⟨entries, listed, read⟩ := checked.listed
  obtain ⟨names, -, -⟩ := ProblemDir.readTests_spec read
  have member (name : String) : name ∈ problem.tests.map TestCase.name ↔
      name ≠ "" ∧ some (name ++ ".in") ∈ entries := by
    rw [names, ProblemDir.mem_testNames, List.mem_filterMap]
    simp
  refine ⟨entries, listed, problem.loaded.nonempty, problem.loaded.sorted, ?_, ?_, ?_, ?_⟩
  · intro stem some inside
    have nodup : (problem.tests.map TestCase.name).Nodup := problem.loaded.sorted.imp ne_of_lt
    exact List.count_eq_one_of_mem nodup ((member stem).mpr ⟨some, inside⟩)
  · intro test inside
    exact (member test.name).mp (List.mem_map_of_mem inside)
  · exact ProblemDir.readTests_files read
  · rw [samples]
    exact checked.samples

end Load

end Problem

/-! ### A set of problems -/

/-- A directory in the root of the problems. -/
structure RootEntry where
  dir : ProblemDir
  /-- Whether `problem.toml` is a file. -/
  isProblem : Bool

/-- The root of the problems. -/
structure ProblemsRoot where
  /-- The path, as it is displayed. -/
  path : String
  /-- The entries, in the order of their enumeration. -/
  entries : Except String (List RootEntry)
  distinct : ∀ listed, entries = .ok listed →
    (listed.filterMap fun entry => entry.dir.fileName).Nodup

namespace ProblemSet

/-- The loop of `ProblemSet::load`. -/
def loadEntries [Host] (sha256 : Bytes → Bytes) :
    List RootEntry → ProblemSet → Except ProblemError ProblemSet
  | [], problems => .ok problems
  | entry :: rest, problems =>
    if entry.isProblem then
      match Problem.load sha256 entry.dir with
      | .error e => .error e
      | .ok problem => loadEntries sha256 rest (problems.place problem)
    else loadEntries sha256 rest problems

/-- Loads every sub-directory that contains a `problem.toml`. -/
def load [Host] (sha256 : Bytes → Bytes) (root : ProblemsRoot) :
    Except ProblemError ProblemSet :=
  match root.entries with
  | .error source => .error (.io root.path source)
  | .ok entries => loadEntries sha256 entries Table.empty

end ProblemSet

/-- The same entry, with its tests enumerated in another order. -/
def RootEntry.Reordered (entry entry' : RootEntry) : Prop :=
  entry.dir.Reordered entry'.dir ∧ entry'.isProblem = entry.isProblem

/-- The same entries in another order. -/
def ReorderedEntries (entries entries' : List RootEntry) : Prop :=
  ∃ order, List.Forall₂ RootEntry.Reordered entries order ∧ order.Perm entries'

/-- The same root, enumerated in another order. -/
structure ProblemsRoot.Reordered (root root' : ProblemsRoot) : Prop where
  path : root'.path = root.path
  entries : Enumerated ReorderedEntries root.entries root'.entries

namespace ProblemSet

variable [Host] {sha256 : Bytes → Bytes}

/-- An entry is loaded as a problem. -/
def LoadsAs (sha256 : Bytes → Bytes) (entry : RootEntry) (problem : Problem) : Prop :=
  Problem.load sha256 entry.dir = .ok problem

/-- **The loop loads every problem directory and places the problems.** -/
theorem loadEntries_ok {entries : List RootEntry} {problems set : ProblemSet} :
    loadEntries sha256 entries problems = .ok set ↔
      ∃ loaded, List.Forall₂ (LoadsAs sha256) (entries.filter RootEntry.isProblem) loaded ∧
        problems.placeAll loaded = set := by
  induction entries generalizing problems with
  | nil =>
    constructor
    · intro found
      exact ⟨[], .nil, Except.ok.inj found⟩
    · rintro ⟨loaded, none, rfl⟩
      cases none
      rfl
  | cons entry rest ih =>
    unfold loadEntries
    by_cases here : entry.isProblem = true
    · rw [if_pos here, List.filter_cons_of_pos here]
      cases loads : Problem.load sha256 entry.dir with
      | error e =>
        refine iff_of_false (fun found => by cases found) ?_
        rintro ⟨loaded, both, -⟩
        cases both with
        | cons first _ => cases loads.symm.trans first
      | ok problem =>
        simp only []
        rw [ih]
        constructor
        · rintro ⟨loaded, later, rfl⟩
          exact ⟨problem :: loaded, .cons loads later, rfl⟩
        · rintro ⟨loaded, both, rfl⟩
          cases both with
          | cons first later =>
            cases Except.ok.inj (loads.symm.trans first)
            exact ⟨_, later, rfl⟩
    · rw [if_neg here, List.filter_cons_of_neg here]
      exact ih

/-- Problems of different directories have different slugs. -/
theorem slugs_nodup {entries : List RootEntry} {loaded : List Problem}
    (distinct : (entries.filterMap fun entry => entry.dir.fileName).Nodup)
    (each : List.Forall₂ (LoadsAs sha256) (entries.filter RootEntry.isProblem) loaded) :
    (loaded.map Problem.slug).Nodup := by
  have names : List.Forall₂ (fun entry problem => entry.dir.fileName = some (Problem.slug problem))
      (entries.filter RootEntry.isProblem) loaded := by
    refine each.imp fun entry problem loads => ?_
    obtain ⟨manifest, checked, slug, -⟩ := Problem.load_checked loads
    rw [slug]
    have some := checked.slug.1
    unfold ProblemDir.slug at some ⊢
    cases name : entry.dir.fileName with
    | none => rw [name] at some; exact absurd rfl some
    | some name => rfl
  have sublist : (loaded.map Problem.slug).Sublist
      (entries.filterMap fun entry => entry.dir.fileName) := by
    have same : (entries.filter RootEntry.isProblem).filterMap (fun entry => entry.dir.fileName) =
        loaded.map Problem.slug := by
      clear each
      generalize entries.filter RootEntry.isProblem = kept at names
      induction names with
      | nil => rfl
      | cons first _ ih => simp only [List.filterMap_cons, first, ih, List.map_cons]
    rw [← same]
    exact List.filter_sublist.filterMap _
  exact distinct.sublist sublist

/-- A set has one entry for each problem directory. -/
theorem load_ok {root : ProblemsRoot} {set : ProblemSet} (loads : load sha256 root = .ok set) :
    ∃ entries loaded, root.entries = .ok entries ∧
      List.Forall₂ (LoadsAs sha256) (entries.filter RootEntry.isProblem) loaded ∧
      set.rows.Perm loaded ∧ set.Ordered := by
  unfold load at loads
  split at loads
  · cases loads
  · rename_i entries listed
    obtain ⟨loaded, each, rfl⟩ := loadEntries_ok.mp loads
    have slugs := slugs_nodup (root.distinct entries listed) each
    have rows : (Table.placeAll Table.empty loaded : ProblemSet).rows.Perm (loaded ++ []) :=
      Table.placeAll_rows slugs fun _ _ _ stored => absurd stored List.not_mem_nil
    rw [List.append_nil] at rows
    exact ⟨entries, loaded, listed, each, rows, Table.ordered_empty.placeAll loaded⟩

/-- **A set of problems does not depend on the order of its root.** -/
theorem load_reordered {root root' : ProblemsRoot} (reordered : root.Reordered root')
    {set : ProblemSet} (loads : load sha256 root = .ok set) : load sha256 root' = .ok set := by
  unfold load at loads ⊢
  have both := reordered.entries
  have distinct := root.distinct
  generalize root.entries = found, root'.entries = found' at both loads distinct
  cases both with
  | failed source => cases loads
  | @listed entries entries' same =>
    obtain ⟨order, alike, perm⟩ := same
    obtain ⟨loaded, each, rfl⟩ := loadEntries_ok.mp loads
    have alike' : List.Forall₂ RootEntry.Reordered (entries.filter RootEntry.isProblem)
        (order.filter RootEntry.isProblem) :=
      List.rel_filter (fun entry entry' one => Eq.congr_left one.2.symm) alike
    have each' : List.Forall₂ (LoadsAs sha256) (order.filter RootEntry.isProblem) loaded := by
      generalize entries.filter RootEntry.isProblem = kept,
        order.filter RootEntry.isProblem = kept' at alike' each
      clear loads
      induction alike' generalizing loaded with
      | nil => exact each
      | cons first _ ih =>
        cases each with
        | cons load rest =>
          exact .cons ((Problem.load_reordered first.1).trans load) (ih _ rest)
    obtain ⟨loaded', each'', perm'⟩ :=
      List.perm_comp_forall₂ (perm.filter RootEntry.isProblem).symm each'
    refine loadEntries_ok.mpr ⟨loaded', each'', ?_⟩
    exact (Table.placeAll_perm (slugs_nodup (distinct entries rfl) each) perm'.symm).symm

end ProblemSet

/-- What loading promises about the order of enumeration. -/
structure LoadsInAnyOrder [Host] (sha256 : Bytes → Bytes) : Prop where
  problem : ∀ dir dir' : ProblemDir, dir.Reordered dir' →
    Problem.load sha256 dir' = Problem.load sha256 dir
  tests : ∀ dir problem, Problem.load sha256 dir = .ok problem →
    ∃ entries, dir.entries = .ok entries ∧ Problem.TestsOf dir entries problem
  set : ∀ root root' : ProblemsRoot, root.Reordered root' → ∀ set,
    ProblemSet.load sha256 root = .ok set → ProblemSet.load sha256 root' = .ok set
  entries : ∀ root set, ProblemSet.load sha256 root = .ok set →
    ∃ entries loaded, root.entries = .ok entries ∧
      List.Forall₂ (ProblemSet.LoadsAs sha256) (entries.filter RootEntry.isProblem) loaded ∧
      set.rows.Perm loaded ∧ set.Ordered

/-- **Problems are the same in whatever order their directories are enumerated.** -/
theorem loads_in_any_order [Host] (sha256 : Bytes → Bytes) : LoadsInAnyOrder sha256 where
  problem _ _ reordered := Problem.load_reordered reordered
  tests _ _ loads := Problem.load_tests loads
  set _ _ reordered _ loads := ProblemSet.load_reordered reordered loads
  entries _ _ loads := ProblemSet.load_ok loads

end Codexec
