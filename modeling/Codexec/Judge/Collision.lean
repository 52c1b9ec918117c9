/-
**Test names that clash.**

A test name stands in front of its first blob without a length. If one name begins another, the rest
of the longer name is read as the length of the shorter name's input, and the input can be chosen so
that this length is right (`exists_overlap`); the remaining tests then only have to fill the last
answer (`exists_tail`). So two lists of names have test sets with the same bytes exactly when they
clash (`version_names_tests_iff`).
-/

import Codexec.Judge.Version

namespace Codexec

open Codexec.Library

/-! ### The end of the bytes -/

/-- A test without data. -/
def bareTest (name : String) : TestCase := ⟨name, [], some []⟩

/-- What the names of tests feed to the hasher, with two empty blobs each. -/
def bareInput (names : List String) : Bytes := (names.map bareTest).flatMap testInput

/-- The blob of an answer and the tests after it can end in any bytes. -/
theorem exists_tail (names : List String) (last : Bytes) (small : last.length < 2 ^ 64) :
    ∃ (answer : Bytes) (tests : List TestCase) (before : Bytes),
      tests.map TestCase.name = names ∧
      blob answer ++ tests.flatMap testInput = before ++ last ∧
      before.length = 8 + (bareInput names).length ∧ answer.length < 2 ^ 64 ∧
      ∀ test ∈ tests, Storable test := by
  induction names with
  | nil =>
    refine ⟨last, [], leBytes 8 last.length, rfl, ?_, ?_, small, by simp⟩
    · rw [List.flatMap_nil, List.append_nil]
      rfl
    · rw [length_leBytes]
      rfl
  | cons name names ih =>
    obtain ⟨answer, tests, before, rfl, ends, size, fits, storable⟩ := ih
    refine ⟨[], ⟨name, [], some answer⟩ :: tests, blob [] ++ utf8 name ++ blob [] ++ before, rfl, ?_,
      ?_, by decide, ?_⟩
    · rw [List.flatMap_cons, testInput, Option.getD_some]
      simp only [List.append_assoc]
      rw [ends]
    · simp only [bareInput, bareTest, List.map_cons, List.flatMap_cons, testInput,
        Option.getD_some, List.length_append, length_blob, List.length_nil] at size ⊢
      omega
    · intro test inside
      rcases List.mem_cons.mp inside with rfl | inside
      · exact ⟨rfl, by show 0 < 2 ^ 64; decide, fits⟩
      · exact storable test inside

/-! ### The overlap -/

/-- The first eight bytes of a name that goes on, and of the length that follows it. -/
def window (suffix : Bytes) (shift : Nat) : Bytes := (suffix ++ leBytes 8 shift).take 8

theorem length_window (suffix : Bytes) (shift : Nat) : (window suffix shift).length = 8 := by
  rw [window, List.length_take, List.length_append, length_leBytes]
  omega

theorem window_lt {suffix : Bytes} (bytes : ∀ byte ∈ suffix, byte.toNat < 0xF8) {shift : Nat}
    (small : shift = 0 ∨ shift = 1) : leValue (window suffix shift) < 0xF8 * 256 ^ 7 := by
  have low : ∀ byte ∈ leBytes 8 shift, byte.toNat < 0xF8 := by
    rcases small with rfl | rfl <;> simp [leBytes]
  have inhabited : window suffix shift ≠ [] := by
    apply List.ne_nil_of_length_pos
    rw [length_window]
    decide
  have below : ((window suffix shift).getLast inhabited).toNat < 0xF8 := by
    rcases List.mem_append.mp (List.mem_of_mem_take (List.getLast_mem inhabited)) with
      inside | inside
    · exact bytes _ inside
    · exact low _ inside
  have seven : (window suffix shift).dropLast.length = 7 := by
    rw [List.length_dropLast, length_window]
  have bound : leValue ((window suffix shift).dropLast ++ [_]) < 0xF8 * 256 ^ _ :=
    leValue_lt_of_top below
  rw [List.dropLast_append_getLast inhabited, seven] at bound
  exact bound

theorem le_window {suffix : Bytes} (nonzero : ∀ byte ∈ suffix, byte ≠ 0) {place : Nat}
    (inside : place < suffix.length) (early : place < 8) (shift : Nat) :
    256 ^ place ≤ leValue (window suffix shift) := by
  have within : place < (window suffix shift).length := by
    rw [length_window]
    exact early
  refine le_leValue within ?_
  have same : (window suffix shift)[place] = suffix[place] := by
    simp only [window, List.getElem_take]
    exact List.getElem_append_left inside
  rw [same]
  exact nonzero _ (List.getElem_mem inside)

/-- The bytes of a longer name say a length that covers the name and two lengths. A single byte
says too little: the length behind it is then one and says the next byte. -/
theorem window_covers {suffix : Bytes} (nonempty : suffix ≠ [])
    (nonzero : ∀ byte ∈ suffix, byte ≠ 0) (short : suffix.length < 2 ^ 55) :
    ∃ shift, (shift = 0 ∨ shift = 1) ∧
      suffix.length + 8 + shift ≤ leValue (window suffix shift) := by
  have positive : 1 ≤ suffix.length := List.length_pos_of_ne_nil nonempty
  by_cases single : suffix.length = 1
  · obtain ⟨byte, rfl⟩ := List.length_eq_one_iff.mp single
    refine ⟨1, Or.inr rfl, ?_⟩
    have value : leValue (window [byte] 1) = byte.toNat + 256 := rfl
    rw [value, List.length_singleton]
    omega
  · refine ⟨0, Or.inl rfl, ?_⟩
    by_cases fits : suffix.length ≤ 8
    · have least := le_window nonzero (Nat.sub_lt positive Nat.one_pos) (by omega) 0
      have enough : ∀ length, 2 ≤ length → length ≤ 8 → length + 8 + 0 ≤ 256 ^ (length - 1) := by
        decide
      exact le_trans (enough _ (by omega) fits) least
    · have least := le_window nonzero (show 7 < suffix.length by omega) (by decide) 0
      omega

/-- **The bytes of a longer name can serve as the length of the shorter name's input.** -/
theorem exists_overlap {suffix : Bytes} (nonempty : suffix ≠ [])
    (bytes : ∀ byte ∈ suffix, byte ≠ 0 ∧ byte.toNat < 0xF8) (short : suffix.length < 2 ^ 55)
    (extra : Nat) (small : extra < 2 ^ 56) :
    ∃ input input' filler : Bytes,
      blob input = suffix ++ (blob input' ++ (leBytes 8 (filler.length + extra) ++ filler)) ∧
        input.length < 2 ^ 64 ∧ input'.length < 2 ^ 64 ∧ filler.length + extra < 2 ^ 64 := by
  obtain ⟨shift, bit, least⟩ := window_covers nonempty (fun byte inside => (bytes byte inside).1)
    short
  have most := window_lt (fun byte inside => (bytes byte inside).2) bit
  let size := leValue (window suffix shift)
  let input' : Bytes := List.replicate shift 0
  let filler : Bytes := List.replicate (size - (suffix.length + 8 + shift)) 0
  let text := suffix ++ (blob input' ++ (leBytes 8 (filler.length + extra) ++ filler))
  have opening : text.take 8 = window suffix shift := by
    have grouped : text =
        (suffix ++ leBytes 8 shift) ++ (input' ++ (leBytes 8 (filler.length + extra) ++ filler)) := by
      simp only [text, blob, input', List.length_replicate, List.append_assoc]
    rw [grouped, List.take_append_of_le_length]
    · rfl
    · rw [List.length_append, length_leBytes]
      omega
  have length : (text.drop 8).length = size := by
    simp only [text, input', filler, List.length_drop, List.length_append, length_blob,
      length_leBytes, List.length_replicate]
    omega
  refine ⟨text.drop 8, input', filler, ?_, ?_, ?_, ?_⟩
  · have prefixed : leBytes 8 size = window suffix shift := by
      rw [← length_window suffix shift]
      exact leBytes_leValue _
    rw [blob, length, prefixed, ← opening, List.take_append_drop]
  · rw [length]
    omega
  · rw [List.length_replicate]
    omega
  · rw [List.length_replicate]
    omega

/-! ### Test sets with the same bytes -/

/-- What names feed to the hasher leaves room in the lengths. -/
def Short (names : List String) : Prop := (bareInput names).length < 2 ^ 55

theorem bareInput_cons (name : String) (names : List String) :
    bareInput (name :: names) = utf8 name ++ (blob [] ++ blob []) ++ bareInput names := rfl

theorem length_bareInput_cons (name : String) (names : List String) :
    (bareInput (name :: names)).length =
      (utf8 name).length + 16 + (bareInput names).length := by
  rw [bareInput_cons, List.length_append, List.length_append]
  rfl

theorem storable_bareTest (name : String) : Storable (bareTest name) :=
  ⟨rfl, by show 0 < 2 ^ 64; decide, by show 0 < 2 ^ 64; decide⟩

/-- Two test sets with the given names feed the same bytes. -/
def Collide (names names' : List String) : Prop :=
  ∃ tests tests' : List TestCase, tests.map TestCase.name = names ∧
    tests'.map TestCase.name = names' ∧ (∀ test ∈ tests, Storable test) ∧
    (∀ test ∈ tests', Storable test) ∧ tests.flatMap testInput = tests'.flatMap testInput

theorem Collide.symm {names names' : List String} (collide : Collide names names') :
    Collide names' names := by
  obtain ⟨tests, tests', named, named', storable, storable', same⟩ := collide
  exact ⟨tests', tests, named', named, storable', storable, same.symm⟩

/-- The same first test, without data, in front of both. -/
theorem Collide.cons {names names' : List String} (collide : Collide names names')
    (name : String) : Collide (name :: names) (name :: names') := by
  obtain ⟨tests, tests', rfl, rfl, storable, storable', same⟩ := collide
  refine ⟨bareTest name :: tests, bareTest name :: tests', rfl, rfl, ?_, ?_, ?_⟩
  · intro test inside
    rcases List.mem_cons.mp inside with rfl | inside
    · exact storable_bareTest name
    · exact storable test inside
  · intro test inside
    rcases List.mem_cons.mp inside with rfl | inside
    · exact storable_bareTest name
    · exact storable' test inside
  · rw [List.flatMap_cons, List.flatMap_cons, same]

/-- **A name and a longer one.** -/
theorem collide_of_longer {name name' : String} {names names' : List String}
    (shorter : name.toList <+: name'.toList) (different : name ≠ name')
    (plain : '\x00' ∉ name'.toList) (short : Short (name :: names))
    (short' : Short (name' :: names')) : Collide (name :: names) (name' :: names') := by
  obtain ⟨more, longer⟩ := shorter
  have split : utf8 name' = utf8 name ++ more.flatMap String.utf8EncodeChar := by
    rw [utf8, ← longer, List.flatMap_append]
    rfl
  have nonempty : more.flatMap String.utf8EncodeChar ≠ [] := by
    intro empty
    have nothing : more = [] := by
      cases more with
      | nil => rfl
      | cons c more =>
        rw [List.flatMap_cons] at empty
        have positive : (String.utf8EncodeChar c).length = 0 := by
          rw [(List.append_eq_nil_iff.mp empty).1, List.length_nil]
        rw [String.length_utf8EncodeChar] at positive
        exact absurd positive (Nat.ne_of_gt c.utf8Size_pos)
    rw [nothing, List.append_nil] at longer
    exact different (String.toList_inj.mp longer)
  have bytes : ∀ byte ∈ more.flatMap String.utf8EncodeChar, byte ≠ 0 ∧ byte.toNat < 0xF8 := by
    intro byte inside
    obtain ⟨c, member, inside⟩ := List.mem_flatMap.mp inside
    refine utf8EncodeChar_byte ?_ inside
    rintro rfl
    apply plain
    rw [← longer]
    exact List.mem_append_right _ member
  rw [Short, length_bareInput_cons] at short short'
  rw [split, List.length_append] at short'
  obtain ⟨answer, tests, before, named, ends, size, fits, storable⟩ :=
    exists_tail names (bareInput names') (by omega)
  obtain ⟨input, input', filler, overlap, small, small', room⟩ :=
    exists_overlap nonempty bytes (by omega) before.length (by omega)
  refine ⟨⟨name, input, some answer⟩ :: tests,
    ⟨name', input', some (filler ++ before)⟩ :: names'.map bareTest, ?_, ?_, ?_, ?_, ?_⟩
  · rw [List.map_cons, named]
  · rw [List.map_cons, List.map_map]
    exact congrArg _ (List.map_id names')
  · intro test inside
    rcases List.mem_cons.mp inside with rfl | inside
    · exact ⟨rfl, small, fits⟩
    · exact storable test inside
  · intro test inside
    rcases List.mem_cons.mp inside with rfl | inside
    · refine ⟨rfl, small', ?_⟩
      rw [Option.getD_some, List.length_append]
      exact room
    · obtain ⟨other, _, rfl⟩ := List.mem_map.mp inside
      exact storable_bareTest other
  · rw [List.flatMap_cons, List.flatMap_cons, testInput, testInput, Option.getD_some,
      Option.getD_some, split, overlap]
    have answered : blob (filler ++ before) =
        leBytes 8 (filler.length + before.length) ++ filler ++ before := by
      rw [blob, List.length_append, List.append_assoc]
    rw [answered]
    simp only [List.append_assoc]
    rw [ends]
    rfl

/-- **Names that clash have test sets with the same bytes.** -/
theorem collide_of_clash {names names' : List String} (clash : Clash names names')
    (plain : ∀ name ∈ names, '\x00' ∉ name.toList)
    (plain' : ∀ name ∈ names', '\x00' ∉ name.toList) (short : Short names)
    (short' : Short names') : Collide names names' := by
  induction names generalizing names' with
  | nil => exact clash.elim
  | cons name names ih =>
    cases names' with
    | nil => exact clash.elim
    | cons name' names' =>
      rw [Clash] at clash
      by_cases same : name = name'
      · subst same
        rw [if_pos rfl] at clash
        refine Collide.cons (ih clash ?_ ?_ ?_ ?_) name
        · exact fun other inside => plain other (List.mem_cons_of_mem _ inside)
        · exact fun other inside => plain' other (List.mem_cons_of_mem _ inside)
        · rw [Short, length_bareInput_cons] at short
          rw [Short]
          omega
        · rw [Short, length_bareInput_cons] at short'
          rw [Short]
          omega
      · rw [if_neg same] at clash
        rcases clash with shorter | longer
        · exact collide_of_longer shorter same (plain' name' List.mem_cons_self) short short'
        · exact (collide_of_longer longer (fun equal => same equal.symm)
            (plain name List.mem_cons_self) short' short).symm

theorem Clash.ne {names names' : List String} (clash : Clash names names') : names ≠ names' := by
  rintro rfl
  induction names with
  | nil => exact clash
  | cons name names ih =>
    rw [Clash, if_pos rfl] at clash
    exact ih clash

/-! ### Directories -/

/-- The files of a test. -/
def TestCase.files (test : TestCase) : List String := [test.name ++ ".in", test.name ++ ".out"]

theorem append_in_ne_append_out (first second : String) : first ++ ".in" ≠ second ++ ".out" := by
  intro same
  have texts := congrArg (fun text => text.toList.getLast?) same
  simp at texts

theorem stemOf_out (name : String) : stemOf (name ++ ".out") = none := by
  by_contra found
  obtain ⟨stem, found⟩ := Option.ne_none_iff_exists'.mp found
  exact append_in_ne_append_out _ _ (stemOf_eq_some.mp found).2.symm

theorem nodup_files {tests : List TestCase} (loaded : LoadedTests tests) :
    (tests.flatMap TestCase.files).Nodup := by
  have apart : tests.Pairwise fun test other => test.name ≠ other.name := by
    have sorted := List.pairwise_map.mp loaded.sorted
    exact sorted.imp ne_of_lt
  refine List.nodup_flatMap.mpr ⟨?_, apart.imp ?_⟩
  · intro test _
    exact List.nodup_cons.mpr ⟨by simp, List.nodup_singleton _⟩
  · intro test other different file inside inside'
    rcases List.mem_pair.mp inside with rfl | rfl <;>
      rcases List.mem_pair.mp inside' with same | same
    · exact different ((String.append_left_inj _).mp same)
    · exact append_in_ne_append_out _ _ same
    · exact append_in_ne_append_out _ _ same.symm
    · exact different ((String.append_left_inj _).mp same)

/-- A directory that holds the given tests. -/
def dirOf (tests : List TestCase) (loaded : LoadedTests tests) : ProblemDir where
  path := "problem"
  fileName := some "problem"
  manifest := .ok { title := "Problem" }
  statement := none
  entries := .ok ((tests.flatMap TestCase.files).map some)
  read file :=
    match tests.find? fun test => test.name ++ ".in" = file with
    | some test => .ok test.input
    | none =>
      match tests.find? fun test => test.name ++ ".out" = file with
      | some test => .ok (test.expected.getD [])
      | none => .error "No such file or directory (os error 2)"
  distinct := by
    rintro _ ⟨⟩
    rw [List.filterMap_map, Function.id_comp, List.filterMap_some]
    exact nodup_files loaded
  plain := by
    rintro _ ⟨⟩ file inside
    rw [List.filterMap_map, Function.id_comp, List.filterMap_some] at inside
    obtain ⟨test, member, inside⟩ := List.mem_flatMap.mp inside
    obtain ⟨_, slash, zero⟩ := loaded.named test member
    rcases List.mem_pair.mp inside with rfl | rfl
    · rw [String.toList_append, List.mem_append, List.mem_append]
      exact ⟨fun inside => inside.elim slash (by decide), fun inside => inside.elim zero (by decide)⟩
    · rw [String.toList_append, List.mem_append, List.mem_append]
      exact ⟨fun inside => inside.elim slash (by decide), fun inside => inside.elim zero (by decide)⟩
  small := by
    intro file data found
    split at found
    · rename_i test member
      cases found
      exact (loaded.small test (List.mem_of_find?_eq_some member)).1
    · split at found
      · rename_i test member
        cases found
        exact (loaded.small test (List.mem_of_find?_eq_some member)).2
      · cases found

section Directory

variable {tests : List TestCase}

theorem find_test {file : TestCase → String} {test : TestCase} (member : test ∈ tests)
    (unique : ∀ other ∈ tests, file other = file test → other = test) :
    (tests.find? fun other => file other = file test) = some test := by
  cases found : tests.find? fun other => file other = file test with
  | none =>
    have absent := List.find?_eq_none.mp found test member
    exact absurd (decide_eq_true rfl) absent
  | some other =>
    have same := List.find?_some found
    rw [unique other (List.mem_of_find?_eq_some found) (by simpa using same)]

variable (loaded : LoadedTests tests)

include loaded in
theorem eq_of_name {test other : TestCase} (member : test ∈ tests) (member' : other ∈ tests)
    (same : test.name = other.name) : test = other := by
  have sorted := loaded.sorted
  have nodup : (tests.map TestCase.name).Nodup := sorted.imp ne_of_lt
  exact List.inj_on_of_nodup_map nodup member member' same

theorem read_in {test : TestCase} (member : test ∈ tests) :
    (dirOf tests loaded).read (test.name ++ ".in") = .ok test.input := by
  have found : (tests.find? fun other => other.name ++ ".in" = test.name ++ ".in") = some test :=
    find_test member fun other member' same =>
      eq_of_name loaded member' member ((String.append_left_inj _).mp same)
  simp only [dirOf, found]

theorem read_out {test : TestCase} (member : test ∈ tests) :
    (dirOf tests loaded).read (test.name ++ ".out") = .ok (test.expected.getD []) := by
  have absent : (tests.find? fun other => other.name ++ ".in" = test.name ++ ".out") = none := by
    refine List.find?_eq_none.mpr fun other _ same => ?_
    exact append_in_ne_append_out _ _ (by simpa using same)
  have found : (tests.find? fun other => other.name ++ ".out" = test.name ++ ".out") = some test :=
    find_test member fun other member' same =>
      eq_of_name loaded member' member ((String.append_left_inj _).mp same)
  simp only [dirOf, absent, found]

variable [Host]

theorem readTests_dirOf {part : List TestCase} (within : ∀ test ∈ part, test ∈ tests) :
    (dirOf tests loaded).readTests (part.map TestCase.name) = .ok part := by
  induction part with
  | nil => rfl
  | cons test part ih =>
    have member := within test List.mem_cons_self
    have later := ih fun other inside => within other (List.mem_cons_of_mem _ inside)
    obtain ⟨expected, answered⟩ := Option.isSome_iff_exists.mp (loaded.answered test member)
    rw [List.map_cons, ProblemDir.readTests, read_in loaded member, read_out loaded member]
    simp only [later, answered, Option.getD_some]
    rw [← answered]

omit [Host] in
include loaded in
theorem testNames_dirOf : ProblemDir.testNames ((tests.flatMap TestCase.files).map some) =
    tests.map TestCase.name := by
  have stems : (tests.flatMap TestCase.files).filterMap stemOf = tests.map TestCase.name := by
    rw [List.filterMap_flatMap, List.map_eq_flatMap]
    refine List.flatMap_congr fun test member => ?_
    have stem : stemOf (test.name ++ ".in") = some test.name :=
      stemOf_eq_some.mpr ⟨(loaded.named test member).1, rfl⟩
    rw [TestCase.files, List.filterMap_cons, stem, List.filterMap_cons, stemOf_out]
    rfl
  rw [ProblemDir.testNames, List.filterMap_map, Function.id_comp, List.filterMap_some, stems]
  exact (loaded.sorted.imp le_of_lt).insertionSort_eq

/-- **The directory of tests loads them**, whatever its manifest says that is accepted. -/
theorem contents_withManifest {manifest : Manifest} (bare : manifest.samples = [])
    (limits : ¬(manifest.timeLimitMs = 0 ∨ manifest.memoryLimitMb = 0)) :
    Problem.contents { dirOf tests loaded with manifest := .ok manifest } =
      .ok (manifest, ⟨tests, loaded⟩) := by
  let dir : ProblemDir := { dirOf tests loaded with manifest := .ok manifest }
  have nonempty : tests.map TestCase.name ≠ [] := by
    rw [Ne, List.map_eq_nil_iff]
    exact loaded.nonempty
  have listed : dir.loadTests = .ok ⟨tests, loaded⟩ := by
    have read := readTests_dirOf loaded fun test (member : test ∈ tests) => member
    rw [← testNames_dirOf loaded] at read nonempty
    have same (names : List String) : dir.readTests names = (dirOf tests loaded).readTests names :=
      ProblemDir.readTests_congr (show dir.path = (dirOf tests loaded).path from rfl) rfl rfl names
    exact ProblemDir.loadTests_of_read rfl nonempty ((same _).trans read)
  have slug : ¬(dir.slug = "" ∨ ¬(utf8 dir.slug).all ProblemDir.slugByte) := by
    show ¬("problem" = "" ∨ ¬(utf8 "problem").all ProblemDir.slugByte)
    decide
  have parsed : dir.manifest = .ok manifest := rfl
  show Problem.contents dir = _
  rw [Problem.contents, if_neg slug]
  simp only [parsed, listed, bare, List.find?_nil]
  exact if_neg limits

theorem contents_dirOf : Problem.contents (dirOf tests loaded) =
    .ok ({ title := "Problem" }, ⟨tests, loaded⟩) :=
  contents_withManifest loaded rfl (show ¬((1000 : UInt64) = 0 ∨ (256 : UInt64) = 0) by decide)

end Directory

/-! ### What the version determines -/

/-- What `load` feeds to the hasher for a directory. -/
def hashInput [Host] (dir : ProblemDir) : Except ProblemError Bytes :=
  (Problem.contents dir).map fun (manifest, tests) => versionInput manifest tests.1

/-- The parts of a problem that decide its verdicts. -/
def SameTask (problem problem' : Problem) : Prop :=
  problem.timeLimitMs = problem'.timeLimitMs ∧ problem.memoryLimitKb = problem'.memoryLimitKb ∧
    problem.comparer = problem'.comparer ∧ problem.tests = problem'.tests

/-- Names that the loader accepts: stems, sorted and distinct. -/
structure Stems (names : List String) : Prop where
  nonempty : names ≠ []
  sorted : names.Pairwise (· < ·)
  named : ∀ name ∈ names, name ≠ "" ∧ '/' ∉ name.toList ∧ '\x00' ∉ name.toList

theorem LoadedTests.stems {tests : List TestCase} (loaded : LoadedTests tests) :
    Stems (tests.map TestCase.name) := by
  refine ⟨?_, loaded.sorted, ?_⟩
  · rw [Ne, List.map_eq_nil_iff]
    exact loaded.nonempty
  · intro name inside
    obtain ⟨test, member, rfl⟩ := List.mem_map.mp inside
    exact loaded.named test member

theorem LoadedTests.storable {tests : List TestCase} (loaded : LoadedTests tests) :
    ∀ test ∈ tests, Storable test :=
  fun test member => ⟨loaded.answered test member, loaded.small test member⟩

theorem LoadedTests.of_storable {tests : List TestCase} (stems : Stems (tests.map TestCase.name))
    (storable : ∀ test ∈ tests, Storable test) : LoadedTests tests where
  nonempty := by
    rintro rfl
    exact stems.nonempty rfl
  sorted := stems.sorted
  answered test member := (storable test member).1
  named test member := stems.named _ (List.mem_map_of_mem member)
  small test member := (storable test member).2

section Load

variable [host : Host] {sha256 : Bytes → Bytes}

theorem load_cases {dir : ProblemDir} {problem : Problem}
    (loads : Problem.load sha256 dir = .ok problem) : ∃ manifest : Manifest,
      problem.timeLimitMs = manifest.timeLimitMs ∧
      problem.memoryLimitKb = manifest.memoryLimitMb * 1024 ∧
      problem.comparer = manifest.comparer ∧
      hashInput dir = .ok (versionInput manifest problem.tests) := by
  obtain ⟨manifest, found, -, time, memory, comparer, -⟩ := Problem.contents_of_load loads
  refine ⟨manifest, time, memory, comparer, ?_⟩
  rw [hashInput, found]
  rfl

/-- **Without a clash of names the bytes determine the task.** -/
theorem sameTask_of_hashInput (debugs : host.Debugs) {dir dir' : ProblemDir}
    {problem problem' : Problem} (loads : Problem.load sha256 dir = .ok problem)
    (loads' : Problem.load sha256 dir' = .ok problem')
    (apart : ¬ Clash (problem.tests.map TestCase.name) (problem'.tests.map TestCase.name))
    (number : problem.comparer.isNumber = true) (number' : problem'.comparer.isNumber = true)
    (same : hashInput dir = hashInput dir') : SameTask problem problem' := by
  obtain ⟨manifest, time, memory, comparer, input⟩ := load_cases loads
  obtain ⟨manifest', time', memory', comparer', input'⟩ := load_cases loads'
  rw [input, input'] at same
  rw [comparer] at number
  rw [comparer'] at number'
  obtain ⟨times, memories, comparers, bytes⟩ :=
    header_cancel debugs number number' (Except.ok.inj same)
  have tests := tests_cancel apart problem.loaded.storable problem'.loaded.storable bytes
  refine ⟨?_, ?_, ?_, tests⟩
  · rw [time, time', times]
  · rw [memory, memory', memories]
  · rw [comparer, comparer', comparers]

/-- Of any two loaded problems with these test names, the same bytes mean the same task. -/
def VersionNamesTests (sha256 : Bytes → Bytes) (names names' : List String) : Prop :=
  ∀ (dir dir' : ProblemDir) (problem problem' : Problem),
    Problem.load sha256 dir = .ok problem → Problem.load sha256 dir' = .ok problem' →
    problem.tests.map TestCase.name = names → problem'.tests.map TestCase.name = names' →
    problem.comparer.isNumber = true → problem'.comparer.isNumber = true →
    hashInput dir = hashInput dir' → SameTask problem problem'

/-- **A version names the tests exactly when the test names do not clash.** -/
theorem version_names_tests_iff (debugs : host.Debugs) {names names' : List String}
    (stems : Stems names) (stems' : Stems names') (short : Short names) (short' : Short names') :
    VersionNamesTests sha256 names names' ↔ ¬ Clash names names' := by
  constructor
  · intro determines clash
    obtain ⟨tests, tests', rfl, rfl, storable, storable', same⟩ := collide_of_clash clash
      (fun name inside => (stems.named name inside).2.2)
      (fun name inside => (stems'.named name inside).2.2) short short'
    let loaded := LoadedTests.of_storable stems storable
    let loaded' := LoadedTests.of_storable stems' storable'
    have bytes : hashInput (dirOf tests loaded) = hashInput (dirOf tests' loaded') := by
      rw [hashInput, hashInput, contents_dirOf, contents_dirOf]
      show Except.ok (versionInput _ tests) = Except.ok (versionInput _ tests')
      rw [versionInput, versionInput, same]
    have loads : ∀ {tests : List TestCase} (loaded : LoadedTests tests), ∃ problem,
        Problem.load sha256 (dirOf tests loaded) = .ok problem ∧ problem.tests = tests ∧
          problem.comparer.isNumber = true := by
      intro tests loaded
      rw [Problem.load, contents_dirOf]
      exact ⟨_, rfl, rfl, rfl⟩
    obtain ⟨problem, load, held, number⟩ := loads loaded
    obtain ⟨problem', load', held', number'⟩ := loads loaded'
    have task := determines _ _ problem problem' load load' (by rw [held]) (by rw [held'])
      number number' bytes
    apply clash.ne
    rw [← held, ← held', task.2.2.2]
  · rintro apart dir dir' problem problem' loads loads' rfl rfl number number' same
    exact sameTask_of_hashInput debugs loads loads' apart number number' same

end Load

theorem stems_of_decide {names : List String}
    (holds : names ≠ [] ∧ names.Pairwise (· < ·) ∧
      ∀ name ∈ names, name ≠ "" ∧ '/' ∉ name.toList ∧ '\x00' ∉ name.toList) : Stems names :=
  ⟨holds.1, holds.2.1, holds.2.2⟩

theorem version_names_tests_iff_sample :
    @VersionNamesTests plainHost id ["01", "02"] ["01", "03"] := by
  let host : Host := plainHost
  refine (version_names_tests_iff plainHost_debugs (stems_of_decide (by decide))
    (stems_of_decide (by decide)) ?_ ?_).mpr (by decide)
  · unfold Short
    decide
  · unfold Short
    decide

/-! ### A renamed test -/

/-- A test whose input is as long as the code of `A` says. -/
def testA : TestCase := ⟨"a", 0 :: 64 :: List.replicate 63 0, some []⟩

def testAA : TestCase := ⟨"aA", [], some (List.replicate 64 0)⟩

theorem loaded_testA : LoadedTests [testA] :=
  LoadedTests.of_storable (stems_of_decide (by decide)) (by simp [Storable, testA])

theorem loaded_testAA : LoadedTests [testAA] :=
  LoadedTests.of_storable (stems_of_decide (by decide)) (by simp [Storable, testAA])

/-- Two problems with different tests and the same version. -/
theorem version_collides : ∃ problem problem' : Problem,
    @Problem.load plainHost id (dirOf [testA] loaded_testA) = .ok problem ∧
      @Problem.load plainHost id (dirOf [testAA] loaded_testAA) = .ok problem' ∧
      problem.comparer.isNumber = true ∧ problem'.comparer.isNumber = true ∧
      @hashInput plainHost (dirOf [testA] loaded_testA) =
        @hashInput plainHost (dirOf [testAA] loaded_testAA) ∧
      ¬ SameTask problem problem' := by
  let host : Host := plainHost
  have same : [testA].flatMap testInput = [testAA].flatMap testInput := by decide
  rw [Problem.load, Problem.load, hashInput, hashInput, contents_dirOf, contents_dirOf]
  refine ⟨_, _, rfl, rfl, rfl, rfl, ?_, ?_⟩
  · show Except.ok (versionInput _ [testA]) = Except.ok (versionInput _ [testAA])
    rw [versionInput, versionInput, same]
  · rintro ⟨_, _, _, tests⟩
    have names : [testA].map TestCase.name = [testAA].map TestCase.name :=
      congrArg (List.map TestCase.name) tests
    exact absurd names (by decide)

end Codexec
