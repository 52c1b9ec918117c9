/-
**What a problem version names.**

The bytes behind a version determine the limits, the comparer and every blob, but the name of a test
stands in front of its first blob without a length. Two test sets can therefore feed the same bytes
to the hasher exactly when, at the first position where their names differ, one name begins the
other (`Clash`): the longer name then supplies the bytes of the other test's length
(`collide_of_clash`). Without such a clash the bytes determine everything (`tests_cancel`).
-/

import Codexec.Judge.Problem

namespace Codexec

open Codexec.Library

/-! ### The header -/

/-- The tolerance of a comparer is a number. -/
def Comparer.isNumber : Comparer → Bool
  | .float eps => !eps.isNaN
  | _ => true

theorem noBar_toString (n : Nat) : '|' ∉ (toString n).toList := fun inside =>
  absurd (isDigit_of_mem_toString inside) (by decide)

section Header

variable [host : Host] (debugs : host.Debugs)

include debugs

theorem Comparer.noBar_debug (comparer : Comparer) : '|' ∉ comparer.debug.toList := by
  cases comparer with
  | lines =>
    show '|' ∉ "Lines".toList
    decide
  | tokens =>
    show '|' ∉ "Tokens".toList
    decide
  | float eps =>
    rw [debug, String.toList_append, String.toList_append]
    intro inside
    rcases List.mem_append.mp inside with inside | inside
    · rcases List.mem_append.mp inside with inside | inside
      · exact absurd inside (by decide)
      · exact debugs.noBar eps inside
    · exact absurd inside (by decide)

omit debugs in
/-- The three comparers are printed with different first letters. -/
theorem Comparer.debug_head (comparer : Comparer) : comparer.debug.toList.head? =
    some (match comparer with | .lines => 'L' | .tokens => 'T' | .float _ => 'F') := by
  cases comparer with
  | lines =>
    show "Lines".toList.head? = some 'L'
    decide
  | tokens =>
    show "Tokens".toList.head? = some 'T'
    decide
  | float eps =>
    rw [debug, String.toList_append, String.toList_append]
    rfl

theorem Comparer.debug_injective {first second : Comparer} (number : first.isNumber = true)
    (number' : second.isNumber = true) (same : first.debug = second.debug) : first = second := by
  have letters : first.debug.toList.head? = second.debug.toList.head? := by rw [same]
  rw [debug_head, debug_head] at letters
  cases first <;> cases second <;> simp only [Option.some.injEq] at letters <;>
    try exact absurd letters (by decide)
  case lines.lines => rfl
  case tokens.tokens => rfl
  case float.float eps eps' =>
    have texts := congrArg String.toList same
    simp only [debug, String.toList_append] at texts
    have inner := List.append_cancel_left (List.append_cancel_right texts)
    have values := debugs.injective eps eps' (by simpa [isNumber] using number)
      (by simpa [isNumber] using number') (String.toList_inj.mp inner)
    rw [values]

/-- **The header determines the limits and the comparer.** -/
theorem header_cancel {manifest manifest' : Manifest} {tests tests' : List TestCase}
    (number : manifest.comparer.isNumber = true) (number' : manifest'.comparer.isNumber = true)
    (same : versionInput manifest tests = versionInput manifest' tests') :
    manifest.timeLimitMs = manifest'.timeLimitMs ∧
      manifest.memoryLimitMb = manifest'.memoryLimitMb ∧
      manifest.comparer = manifest'.comparer ∧
      tests.flatMap testInput = tests'.flatMap testInput := by
  have bar : utf8 "|" = String.utf8EncodeChar '|' := rfl
  simp only [versionInput, utf8_append, bar, List.append_assoc] at same
  have time := utf8_cancel_until (noBar_toString _) (noBar_toString _)
    (List.append_cancel_left same)
  have memory := utf8_cancel_until (noBar_toString _) (noBar_toString _) time.2
  have comparer := utf8_cancel_until (Comparer.noBar_debug debugs _)
    (Comparer.noBar_debug debugs _) memory.2
  refine ⟨?_, ?_, ?_, comparer.2⟩
  · exact UInt64.toNat_inj.mp (toString_injective (String.toList_inj.mp time.1))
  · exact UInt64.toNat_inj.mp (toString_injective (String.toList_inj.mp memory.1))
  · exact Comparer.debug_injective debugs number number' (String.toList_inj.mp comparer.1)

end Header

/-! ### Names that do not clash -/

/-- At the first position where both lists have a name and these differ, one name begins the
other. -/
def Clash : List String → List String → Prop
  | name :: names, name' :: names' =>
    if name = name' then Clash names names'
    else name.toList <+: name'.toList ∨ name'.toList <+: name.toList
  | _, _ => False

instance Clash.decidable : DecidableRel Clash
  | [], _ => isFalse id
  | _ :: _, [] => isFalse id
  | name :: names, name' :: names' =>
    have : Decidable (Clash names names') := Clash.decidable names names'
    inferInstanceAs (Decidable (if name = name' then Clash names names'
      else name.toList <+: name'.toList ∨ name'.toList <+: name.toList))

/-- Every test has an answer, and its blobs have lengths that eight bytes hold. -/
def Storable (test : TestCase) : Prop :=
  test.expected.isSome ∧ test.input.length < 2 ^ 64 ∧ (test.expected.getD []).length < 2 ^ 64

theorem testInput_ne_nil (test : TestCase) : testInput test ≠ [] := by
  apply List.ne_nil_of_length_pos
  rw [testInput, List.length_append, List.length_append, length_blob]
  omega

/-- **Without a clash the bytes determine the tests.** -/
theorem tests_cancel {tests tests' : List TestCase}
    (apart : ¬ Clash (tests.map TestCase.name) (tests'.map TestCase.name))
    (storable : ∀ test ∈ tests, Storable test) (storable' : ∀ test ∈ tests', Storable test)
    (same : tests.flatMap testInput = tests'.flatMap testInput) : tests = tests' := by
  induction tests generalizing tests' with
  | nil =>
    cases tests' with
    | nil => rfl
    | cons test rest =>
      rw [List.flatMap_nil, List.flatMap_cons] at same
      exact absurd (List.append_eq_nil_iff.mp same.symm).1 (testInput_ne_nil test)
  | cons test rest ih =>
    cases tests' with
    | nil =>
      rw [List.flatMap_nil, List.flatMap_cons] at same
      exact absurd (List.append_eq_nil_iff.mp same).1 (testInput_ne_nil test)
    | cons test' rest' =>
      rw [List.flatMap_cons, List.flatMap_cons, testInput, testInput, List.append_assoc,
        List.append_assoc, List.append_assoc, List.append_assoc] at same
      rw [List.map_cons, List.map_cons, Clash] at apart
      by_cases names : test.name = test'.name
      · rw [if_pos names] at apart
        obtain ⟨answered, input, expected⟩ := storable test List.mem_cons_self
        obtain ⟨answered', input', expected'⟩ := storable' test' List.mem_cons_self
        rw [names] at same
        have blobs := blob_cancel input input' (List.append_cancel_left same)
        have answers := blob_cancel expected expected' blobs.2
        have later := ih apart (fun other inside => storable other (List.mem_cons_of_mem _ inside))
          (fun other inside => storable' other (List.mem_cons_of_mem _ inside)) answers.2
        have tests : test = test' := by
          obtain ⟨name, data, answer⟩ := test
          obtain ⟨name', data', answer'⟩ := test'
          obtain ⟨value, rfl⟩ := Option.isSome_iff_exists.mp answered
          obtain ⟨value', rfl⟩ := Option.isSome_iff_exists.mp answered'
          simp only [Option.getD_some] at answers
          simp only [] at names blobs
          rw [names, blobs.1, answers.1]
        rw [tests, later]
      · rw [if_neg names] at apart
        exact absurd (prefix_of_utf8 same) apart

end Codexec
