/-
**What the comparison of lines decides.**

Two outputs match exactly when their lines are the same after the blanks at the end of every line
and the empty lines at the end are gone (`compareLines_compared`). The code cuts a line at its last
byte that is not blank, and stops at the first pair of lines that differ; the mathematics is that
of `Split.trimmedLines`.
-/

import Codexec.Judge.Compare
import Codexec.Library.Split

namespace Codexec

open Codexec.Library Split

/-! ### The normal form -/

theorem rposition_lt {wanted : UInt8 → Bool} {line : Bytes} {last : Nat}
    (found : rposition wanted line = some last) : last < line.length := by
  unfold rposition at found
  obtain ⟨back, here, rfl⟩ := Option.map_eq_some_iff.mp found
  obtain ⟨within, -⟩ := List.findIdx?_eq_some_iff_getElem.mp here
  rw [List.length_reverse] at within
  omega

theorem rposition_concat (wanted : UInt8 → Bool) (line : Bytes) (byte : UInt8) :
    rposition wanted (line ++ [byte]) =
      if wanted byte then some line.length else rposition wanted line := by
  unfold rposition
  rw [List.reverse_concat, List.findIdx?_cons, List.length_append, List.length_singleton]
  split
  · simp
  · rw [Option.map_map]
    congr 1
    funext back
    show line.length + 1 - 1 - (back + 1) = line.length - 1 - back
    omega

/-- A line up to its last byte that is not blank is the line without the blanks at its end. -/
theorem trimLine_eq (line : Bytes) : trimLine line = line.rdropWhile isBlank := by
  induction line using List.reverseRecOn with
  | nil => rfl
  | append_singleton line byte ih =>
    unfold trimLine at ih ⊢
    rw [rposition_concat]
    by_cases blank : isBlank byte = true
    · rw [List.rdropWhile_concat_pos _ _ _ blank, ← ih, blank, Bool.not_true,
        if_neg Bool.false_ne_true]
      refine List.take_append_of_le_length ?_
      cases found : rposition (fun byte => !isBlank byte) line with
      | none => exact Nat.zero_le _
      | some last => exact rposition_lt found
    · rw [List.rdropWhile_concat_neg _ _ _ blank, if_pos (by simpa using blank)]
      refine List.take_of_length_le ?_
      rw [List.length_append]
      exact Nat.le_refl _

theorem normalizedLines_eq (data : Bytes) :
    normalizedLines data = trimmedLines 0x0A isBlank data := by
  rw [normalizedLines, trimmedLines, stripped, List.splitOn_eq_splitOnP]
  congr 2
  funext line
  exact trimLine_eq line

/-! ### The loop -/

/-- Two lists of lines agree up to a position, and have different lines there. -/
def DifferAt (position : Nat) (expected actual : List Bytes) : Prop :=
  expected.take position = actual.take position ∧
    ∃ line line', expected[position]? = some line ∧ actual[position]? = some line' ∧ line ≠ line'

/-- One list of lines continues the other. -/
def ProperPrefix (expected actual : List Bytes) : Prop := expected <+: actual ∧ expected ≠ actual

theorem firstDifference_some {start index : Nat} {expected actual : List Bytes}
    (found : firstDifference start expected actual = some index) :
    ∃ position, index = start + position ∧ DifferAt position expected actual := by
  induction expected generalizing start actual with
  | nil => cases found
  | cons line rest ih =>
    cases actual with
    | nil => cases found
    | cons line' rest' =>
      unfold firstDifference at found
      by_cases differs : line ≠ line'
      · rw [if_pos differs] at found
        cases found
        exact ⟨0, rfl, rfl, line, line', rfl, rfl, differs⟩
      · rw [if_neg differs] at found
        rw [not_not] at differs
        obtain ⟨position, rfl, same, here⟩ := ih found
        refine ⟨position + 1, by omega, ?_, here⟩
        rw [List.take_succ_cons, List.take_succ_cons, same, differs]

theorem firstDifference_none {start : Nat} {expected actual : List Bytes}
    (found : firstDifference start expected actual = none) :
    expected <+: actual ∨ actual <+: expected := by
  induction expected generalizing start actual with
  | nil => exact .inl List.nil_prefix
  | cons line rest ih =>
    cases actual with
    | nil => exact .inr List.nil_prefix
    | cons line' rest' =>
      unfold firstDifference at found
      by_cases differs : line ≠ line'
      · rw [if_pos differs] at found
        cases found
      · rw [if_neg differs] at found
        rw [not_not] at differs
        subst differs
        rcases ih found with before | after
        · exact .inl (List.cons_prefix_cons.mpr ⟨rfl, before⟩)
        · exact .inr (List.cons_prefix_cons.mpr ⟨rfl, after⟩)

def differMessage (k : Nat) : String := s!"line {k} differs"

def countMessage (m n : Nat) : String := s!"expected {m} lines, got {n}"

/-- **What the comparison of lines answers.** -/
inductive LinesCompared (expected actual : List Bytes) : Except String Unit → Prop
  | same (equal : expected = actual) : LinesCompared expected actual (.ok ())
  | differs {position : Nat} (differ : DifferAt position expected actual) :
      LinesCompared expected actual (.error (differMessage (position + 1)))
  | count (continued : ProperPrefix expected actual ∨ ProperPrefix actual expected) :
      LinesCompared expected actual (.error (countMessage expected.length actual.length))

theorem compareLines_compared (expected actual : Bytes) :
    LinesCompared (normalizedLines expected) (normalizedLines actual)
      (compareLines expected actual) := by
  unfold compareLines
  simp only []
  cases found : firstDifference 0 (normalizedLines expected) (normalizedLines actual) with
  | some index =>
    obtain ⟨position, rfl, differ⟩ := firstDifference_some found
    rw [Nat.zero_add]
    exact .differs differ
  | none =>
    simp only []
    split
    · rename_i lengths
      refine .count ?_
      rcases firstDifference_none found with before | after
      · exact .inl ⟨before, fun same => lengths (congrArg List.length same)⟩
      · exact .inr ⟨after, fun same => lengths (congrArg List.length same.symm)⟩
    · rename_i lengths
      rw [not_not] at lengths
      refine .same ?_
      rcases firstDifference_none found with before | after
      · exact before.eq_of_length lengths
      · exact (after.eq_of_length lengths.symm).symm

/-- The message names one line. -/
theorem differMessage_injective {k k' : Nat} (same : differMessage k = differMessage k') :
    k = k' := by
  have texts : ("line " ++ toString k ++ " differs").toList =
      ("line " ++ toString k' ++ " differs").toList := congrArg String.toList same
  simp only [String.toList_append, List.append_assoc] at texts
  have numbers := List.append_cancel_right (List.append_cancel_left texts)
  exact toString_injective (String.toList_inj.mp numbers)

/-- The two messages begin with different letters. -/
theorem differMessage_ne (k m n : Nat) : differMessage k ≠ countMessage m n := by
  intro same
  have texts : ("line " ++ toString k ++ " differs").toList =
      ("expected " ++ toString m ++ " lines, got " ++ toString n).toList :=
    congrArg String.toList same
  simp only [String.toList_append, List.append_assoc] at texts
  cases (List.cons.inj texts).1

/-! ### The equivalence -/

/-- White space is added at the ends of lines or at the end of the output. -/
abbrev Padding : Bytes → Bytes → Prop := Padded 0x0A isBlank

/-- What the comparison of lines promises. -/
structure DecidesLines [Host] : Prop where
  decides : ∀ e a, compare .lines e a = .ok () ↔
    trimmedLines 0x0A isBlank e = trimmedLines 0x0A isBlank a
  equivalence : Equivalence fun e a => compare .lines e a = .ok ()
  idempotent : ∀ data, normalizedLines (unlines 0x0A (normalizedLines data)) = normalizedLines data
  paddedExpected : ∀ e e' a, Padding e e' → compare .lines e' a = compare .lines e a
  paddedActual : ∀ e a a', Padding a a' → compare .lines e a' = compare .lines e a
  /-- Any other difference is rejected. -/
  rejects : ∀ e a, compare .lines e a = .ok () ↔ Relation.EqvGen Padding e a
  differs : ∀ e a k, compare .lines e a = .error (differMessage k) →
    ∃ position, k = position + 1 ∧ DifferAt position (normalizedLines e) (normalizedLines a)
  count : ∀ e a m n, compare .lines e a = .error (countMessage m n) →
    ProperPrefix (normalizedLines e) (normalizedLines a) ∨
      ProperPrefix (normalizedLines a) (normalizedLines e)
  messages : ∀ e a why, compare .lines e a = .error why →
    (∃ k, why = differMessage k) ∨ ∃ m n, why = countMessage m n

theorem compareLines_ok_iff {expected actual : Bytes} :
    compareLines expected actual = .ok () ↔ normalizedLines expected = normalizedLines actual := by
  have compared := compareLines_compared expected actual
  constructor
  · intro ok
    rw [ok] at compared
    cases compared with
    | same equal => exact equal
  · intro equal
    generalize compareLines expected actual = answer at compared
    cases compared with
    | same => rfl
    | differs differ =>
      obtain ⟨-, line, line', here, there, different⟩ := differ
      rw [equal, there] at here
      exact absurd (Option.some.inj here).symm different
    | count continued =>
      rcases continued with ⟨-, different⟩ | ⟨-, different⟩
      · exact absurd equal different
      · exact absurd equal.symm different

/-- The answer depends on the normal forms only. -/
theorem compareLines_congr {e e' a a' : Bytes} (expected : normalizedLines e' = normalizedLines e)
    (actual : normalizedLines a' = normalizedLines a) : compareLines e' a' = compareLines e a := by
  rw [compareLines, compareLines, expected, actual]

theorem normalizedLines_padded {data data' : Bytes} (padded : Padding data data') :
    normalizedLines data' = normalizedLines data := by
  rw [normalizedLines_eq, normalizedLines_eq]
  exact ((trimmedLines_eq_iff (by decide) data data').mpr (.rel _ _ padded)).symm

/-- **The comparison of lines decides its documented equivalence.** -/
theorem lines_decide_equivalence [Host] : DecidesLines := by
  refine ⟨?_, ?_, ?_, ?_, ?_, ?_, ?_, ?_, ?_⟩
  · intro e a
    rw [← normalizedLines_eq, ← normalizedLines_eq]
    exact compareLines_ok_iff
  · refine ⟨fun data => compareLines_ok_iff.mpr rfl, fun same => ?_, fun one two => ?_⟩
    · exact compareLines_ok_iff.mpr (compareLines_ok_iff.mp same).symm
    · exact compareLines_ok_iff.mpr
        ((compareLines_ok_iff.mp one).trans (compareLines_ok_iff.mp two))
  · intro data
    rw [normalizedLines_eq, normalizedLines_eq, trimmedLines_unlines]
  · intro e e' a padded
    exact compareLines_congr (normalizedLines_padded padded) rfl
  · intro e a a' padded
    exact compareLines_congr rfl (normalizedLines_padded padded)
  · intro e a
    rw [← trimmedLines_eq_iff (by decide), ← normalizedLines_eq, ← normalizedLines_eq]
    exact compareLines_ok_iff
  · intro e a k failed
    have compared := compareLines_compared e a
    rw [show compareLines e a = _ from failed] at compared
    generalize same : Except.error (differMessage k) = answer at compared
    cases compared with
    | same => cases same
    | @differs position differ =>
      exact ⟨position, differMessage_injective (Except.error.inj same), differ⟩
    | count => exact absurd (Except.error.inj same) (differMessage_ne _ _ _)
  · intro e a m n failed
    have compared := compareLines_compared e a
    rw [show compareLines e a = _ from failed] at compared
    generalize same : Except.error (countMessage m n) = answer at compared
    cases compared with
    | same => cases same
    | differs => exact absurd (Except.error.inj same).symm (differMessage_ne _ _ _)
    | count continued => exact continued
  · intro e a why failed
    have compared := compareLines_compared e a
    rw [show compareLines e a = _ from failed] at compared
    cases compared with
    | differs => exact .inl ⟨_, rfl⟩
    | count => exact .inr ⟨_, _, rfl⟩

end Codexec
