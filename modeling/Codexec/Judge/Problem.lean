/-
**Problems on disk.**

`load` is a function of what a problem directory holds: the parsed manifest, the directory entries
of `tests/` in the order in which they are enumerated, and the contents of the files. A loaded
problem carries what the loader guarantees about its tests in a field. `versionInput` is what the
loader feeds to the hasher.
-/

import Codexec.Judge.Pipeline
import Codexec.Library.Blob
import Codexec.Library.Table
import Mathlib.Data.String.Basic
import Mathlib.Data.List.Sort

namespace Codexec

open Codexec.Library

inductive ProblemError
  | io (path source : String)
  | parse (path source : String)
  | invalid (slug reason : String)
  deriving DecidableEq

structure Manifest where
  title : String
  difficulty : String := "medium"
  timeLimitMs : UInt64 := 1000
  memoryLimitMb : UInt64 := 256
  comparer : Comparer := .lines
  /-- Names of tests shown in the statement and used by Run. -/
  samples : List String := []
  /-- Whether the first failing test's input may be shown to the user. -/
  showFailedInput : Bool := false
  tags : List String := []
  deriving DecidableEq

/-- What the loader guarantees about the tests of a problem. -/
structure LoadedTests (tests : List TestCase) : Prop where
  nonempty : tests ≠ []
  sorted : (tests.map TestCase.name).Pairwise (· < ·)
  answered : ∀ test ∈ tests, test.expected.isSome
  named : ∀ test ∈ tests, test.name ≠ "" ∧ '/' ∉ test.name.toList ∧ '\x00' ∉ test.name.toList
  small : ∀ test ∈ tests, test.input.length < 2 ^ 64 ∧ (test.expected.getD []).length < 2 ^ 64

structure Problem where
  slug : String
  title : String
  difficulty : String
  tags : List String
  timeLimitMs : UInt64
  memoryLimitKb : UInt64
  comparer : Comparer
  showFailedInput : Bool
  statement : String
  tests : List TestCase
  sampleNames : List String
  /-- Content hash of limits, comparer and tests. -/
  version : String
  loaded : LoadedTests tests

/-! ### Loading -/

/-- What a problem directory holds. -/
structure ProblemDir where
  /-- The path, as it is displayed. -/
  path : String
  /-- The last component of the path, if it is UTF-8. -/
  fileName : Option String
  /-- `problem.toml`, read and parsed. -/
  manifest : Except ProblemError Manifest
  statement : Option String
  /-- The entries of `tests/`, in the order of their enumeration; `none` is not UTF-8. -/
  entries : Except String (List (Option String))
  /-- The contents of a file in `tests/`. -/
  read : String → Except String Bytes
  distinct : ∀ names, entries = .ok names → (names.filterMap id).Nodup
  plain : ∀ names, entries = .ok names → ∀ name ∈ names.filterMap id,
    '/' ∉ name.toList ∧ '\x00' ∉ name.toList
  small : ∀ name data, read name = .ok data → data.length < 2 ^ 64

/-- The stem of a file name with the extension `in`. -/
def stemOf (name : String) : Option String :=
  let backwards := name.toList.reverse
  if backwards.takeWhile (· != '.') = ['n', 'i'] then
    match backwards.dropWhile (· != '.') with
    | _ :: c :: rest => some (String.ofList (c :: rest).reverse)
    | _ => none
  else none

/-- **A stem is what stands before `.in`.** -/
theorem stemOf_eq_some {name stem : String} :
    stemOf name = some stem ↔ stem ≠ "" ∧ name = stem ++ ".in" := by
  constructor
  · intro found
    unfold stemOf at found
    simp only [] at found
    split at found
    · rename_i extension
      split at found
      · rename_i dot c rest tail
        have stop : dot = '.' := by
          have head := List.head?_dropWhile_not (· != '.') name.toList.reverse
          rw [tail] at head
          simpa using head
        have whole := List.takeWhile_append_dropWhile (p := (· != '.')) (l := name.toList.reverse)
        rw [extension, tail, stop] at whole
        cases found
        refine ⟨?_, ?_⟩
        · intro empty
          have chars := congrArg String.toList empty
          simp at chars
        · apply String.toList_inj.mp
          rw [String.toList_append, String.toList_ofList, ← List.reverse_inj, ← whole]
          simp
      · cases found
    · cases found
  · rintro ⟨nonempty, rfl⟩
    have backwards : (stem ++ ".in").toList.reverse = 'n' :: 'i' :: '.' :: stem.toList.reverse := by
      simp
    unfold stemOf
    simp only [backwards]
    cases chars : stem.toList.reverse with
    | nil =>
      rw [List.reverse_eq_nil_iff] at chars
      exact absurd (String.toList_eq_nil_iff.mp chars) nonempty
    | cons c rest =>
      have same : String.ofList (c :: rest).reverse = stem := by
        rw [← chars, List.reverse_reverse, String.ofList_toList]
      show some (String.ofList (c :: rest).reverse) = some stem
      rw [same]

namespace ProblemDir

variable (dir : ProblemDir)

def slug : String := dir.fileName.getD ""

/-- A byte of a slug: a lowercase letter, a digit or a dash. -/
def slugByte (byte : UInt8) : Bool :=
  (0x61 ≤ byte && byte ≤ 0x7A) || (0x30 ≤ byte && byte ≤ 0x39) || byte == 0x2D

/-- The stems of the test inputs, sorted. -/
def testNames (entries : List (Option String)) : List String :=
  ((entries.filterMap id).filterMap stemOf).insertionSort (· ≤ ·)

/-- The tests of `names`, read from the directory. -/
def readTests [Host] : List String → Except ProblemError (List TestCase)
  | [] => .ok []
  | name :: rest =>
    match dir.read (name ++ ".in") with
    | .error source => .error (.io (dir.path ++ "/tests/" ++ name ++ ".in") source)
    | .ok input =>
      match dir.read (name ++ ".out") with
      | .error _ =>
        .error (.invalid dir.slug ("test " ++ Host.debugStr name ++ " has no .out file"))
      | .ok expected =>
        match readTests rest with
        | .error e => .error e
        | .ok tests => .ok (⟨name, input, some expected⟩ :: tests)

variable {dir}

/-- Reading depends on the path, the name and the files of a directory only. -/
theorem readTests_congr [Host] {dir' : ProblemDir} (path : dir'.path = dir.path)
    (fileName : dir'.fileName = dir.fileName) (read : dir'.read = dir.read) (names : List String) :
    dir'.readTests names = dir.readTests names := by
  induction names with
  | nil => rfl
  | cons name rest ih => simp only [readTests, ih, read, path, slug, fileName]

theorem readTests_spec [Host] {names : List String} {tests : List TestCase}
    (read : dir.readTests names = .ok tests) :
    tests.map TestCase.name = names ∧ (∀ test ∈ tests, test.expected.isSome) ∧
      ∀ test ∈ tests, test.input.length < 2 ^ 64 ∧ (test.expected.getD []).length < 2 ^ 64 := by
  induction names generalizing tests with
  | nil =>
    cases read
    exact ⟨rfl, by simp, by simp⟩
  | cons name rest ih =>
    unfold readTests at read
    split at read
    · cases read
    · rename_i input found
      split at read
      · cases read
      · rename_i expected found'
        split at read
        · cases read
        · rename_i others later
          cases read
          obtain ⟨names, answered, small⟩ := ih later
          refine ⟨by rw [List.map_cons, names], ?_, ?_⟩
          · intro test inside
            rcases List.mem_cons.mp inside with rfl | inside
            · rfl
            · exact answered test inside
          · intro test inside
            rcases List.mem_cons.mp inside with rfl | inside
            · exact ⟨dir.small _ _ found, dir.small _ _ found'⟩
            · exact small test inside

theorem mem_testNames {entries : List (Option String)} {name : String} :
    name ∈ testNames entries ↔ name ≠ "" ∧ name ++ ".in" ∈ entries.filterMap id := by
  unfold testNames
  rw [List.mem_insertionSort, List.mem_filterMap]
  constructor
  · rintro ⟨file, inside, stem⟩
    obtain ⟨nonempty, rfl⟩ := stemOf_eq_some.mp stem
    exact ⟨nonempty, inside⟩
  · rintro ⟨nonempty, inside⟩
    exact ⟨_, inside, stemOf_eq_some.mpr ⟨nonempty, rfl⟩⟩

/-- Different files have different stems. -/
theorem testNames_sorted {entries : List (Option String)} (distinct : (entries.filterMap id).Nodup) :
    (testNames entries).Pairwise (· < ·) := by
  have nodup : ((entries.filterMap id).filterMap stemOf).Nodup := by
    refine distinct.filterMap ?_
    intro file other stem found found'
    obtain ⟨_, rfl⟩ := stemOf_eq_some.mp found
    obtain ⟨_, rfl⟩ := stemOf_eq_some.mp found'
    rfl
  have different : (testNames entries).Nodup := by
    unfold testNames
    exact (List.perm_insertionSort _ _).nodup_iff.mpr nodup
  have ordered : (testNames entries).Pairwise (· ≤ ·) := List.pairwise_insertionSort _ _
  exact (ordered.and different).imp fun both => lt_of_le_of_ne both.1 both.2

theorem loadedTests_of_read [Host] {entries : List (Option String)}
    (listed : dir.entries = .ok entries) (nonempty : testNames entries ≠ [])
    {tests : List TestCase} (read : dir.readTests (testNames entries) = .ok tests) :
    LoadedTests tests := by
  obtain ⟨names, answered, small⟩ := readTests_spec read
  refine ⟨?_, ?_, answered, ?_, small⟩
  · rintro rfl
    exact nonempty names.symm
  · rw [names]
    exact testNames_sorted (dir.distinct entries listed)
  · intro test inside
    have named : test.name ∈ testNames entries := by
      rw [← names]
      exact List.mem_map_of_mem inside
    obtain ⟨stem, file⟩ := mem_testNames.mp named
    obtain ⟨slash, zero⟩ := dir.plain entries listed _ file
    rw [String.toList_append] at slash zero
    exact ⟨stem, fun inside => slash (List.mem_append_left _ inside),
      fun inside => zero (List.mem_append_left _ inside)⟩

variable (dir)

/-- The tests of the directory. -/
def loadTests [Host] : Except ProblemError {tests : List TestCase // LoadedTests tests} :=
  match listed : dir.entries with
  | .error source => .error (.io (dir.path ++ "/tests") source)
  | .ok entries =>
    if nonempty : testNames entries = [] then
      .error (.invalid dir.slug "no tests/*.in files")
    else
      match read : dir.readTests (testNames entries) with
      | .error e => .error e
      | .ok tests => .ok ⟨tests, loadedTests_of_read listed nonempty read⟩

variable {dir}

theorem loadTests_of_read [Host] {entries : List (Option String)}
    (listed : dir.entries = .ok entries) (nonempty : testNames entries ≠ [])
    {tests : List TestCase} (read : dir.readTests (testNames entries) = .ok tests) :
    dir.loadTests = .ok ⟨tests, loadedTests_of_read listed nonempty read⟩ := by
  unfold loadTests
  split
  · rename_i source failed
    rw [listed] at failed
    cases failed
  · rename_i entries' listed'
    obtain rfl : entries = entries' := Except.ok.inj (listed.symm.trans listed')
    rw [dif_neg nonempty]
    split
    · rename_i e failed
      rw [read] at failed
      cases failed
    · rename_i tests' read'
      obtain rfl : tests = tests' := Except.ok.inj (read.symm.trans read')
      rfl

end ProblemDir

/-! ### The version -/

/-- `{:?}` of a comparer. -/
def Comparer.debug [Host] : Comparer → String
  | .lines => "Lines"
  | .tokens => "Tokens"
  | .float eps => "Float \x7b eps: " ++ Host.debugF64 eps ++ " \x7d"

/-- What a test feeds to the hasher. -/
def testInput (test : TestCase) : Bytes :=
  utf8 test.name ++ (blob test.input ++ blob (test.expected.getD []))

/-- What `load` feeds to the hasher. -/
def versionInput [Host] (manifest : Manifest) (tests : List TestCase) : Bytes :=
  utf8 ("v1|" ++ toString manifest.timeLimitMs.toNat ++ "|" ++
      toString manifest.memoryLimitMb.toNat ++ "|" ++ manifest.comparer.debug ++ "|") ++
    tests.flatMap testInput

/-- Two hexadecimal digits for each byte. -/
def hex (digest : Bytes) : String :=
  String.ofList (digest.flatMap fun byte =>
    [Nat.digitChar (byte.toNat / 16), Nat.digitChar (byte.toNat % 16)])

namespace Problem

/-- The checked contents of a directory. -/
def contents [Host] (dir : ProblemDir) :
    Except ProblemError (Manifest × {tests : List TestCase // LoadedTests tests}) :=
  if dir.slug = "" ∨ ¬(utf8 dir.slug).all ProblemDir.slugByte then
    .error (.invalid dir.slug "directory name must be lowercase letters, digits and '-'")
  else
    match dir.manifest with
    | .error e => .error e
    | .ok manifest =>
      match dir.loadTests with
      | .error e => .error e
      | .ok tests =>
        match manifest.samples.find? fun sample => sample ∉ tests.1.map TestCase.name with
        | some sample =>
          .error (.invalid dir.slug ("sample " ++ Host.debugStr sample ++ " is not a test"))
        | none =>
          if manifest.timeLimitMs = 0 ∨ manifest.memoryLimitMb = 0 then
            .error (.invalid dir.slug "limits must be positive")
          else .ok (manifest, tests)

/-- `Problem::load`, for a hash function. -/
def load [Host] (sha256 : Bytes → Bytes) (dir : ProblemDir) : Except ProblemError Problem :=
  (contents dir).map fun (manifest, tests) =>
    { slug := dir.slug
      title := manifest.title
      difficulty := manifest.difficulty
      tags := manifest.tags
      timeLimitMs := manifest.timeLimitMs
      memoryLimitKb := manifest.memoryLimitMb * 1024
      comparer := manifest.comparer
      showFailedInput := manifest.showFailedInput
      statement := dir.statement.getD ""
      tests := tests.1
      sampleNames := manifest.samples
      version := hex (sha256 (versionInput manifest tests.1))
      loaded := tests.2 }

/-- What a loaded problem has from the contents of its directory. -/
theorem contents_of_load [Host] {sha256 : Bytes → Bytes} {dir : ProblemDir} {problem : Problem}
    (loads : load sha256 dir = .ok problem) : ∃ manifest : Manifest,
      contents dir = .ok (manifest, ⟨problem.tests, problem.loaded⟩) ∧ problem.slug = dir.slug ∧
        problem.timeLimitMs = manifest.timeLimitMs ∧
        problem.memoryLimitKb = manifest.memoryLimitMb * 1024 ∧
        problem.comparer = manifest.comparer ∧ problem.sampleNames = manifest.samples := by
  unfold load at loads
  cases found : contents dir with
  | error e =>
    rw [found] at loads
    cases loads
  | ok both =>
    rw [found] at loads
    cases loads
    exact ⟨both.1, rfl, rfl, rfl, rfl, rfl, rfl⟩

/-- The tests whose names are samples. -/
def samples (problem : Problem) : List TestCase :=
  problem.tests.filter fun test => problem.sampleNames.contains test.name

end Problem

/-- Problems under their slugs. -/
abbrev ProblemSet : Type := Table Problem Problem.slug

end Codexec
