/-
**Two lists read in lock step.**

How far two lists match, item by item, is the greatest number of items up to which they do
(`LongestMatch`). Reading both lists in lock step finds it: a pair that matches adds one
(`LongestMatch.cons`), and the first pair that does not, or the end of a list, ends it
(`longestMatch_of_mismatch`, `longestMatch_nil_left`, `longestMatch_nil_right`).
-/

import Mathlib.Data.List.Forall2
import Mathlib.Order.Bounds.Basic

namespace Codexec.Library.Matching

variable {α β : Type} {r : α → β → Prop}

/-- Both lists have so many items, and these match pair by pair. -/
structure MatchesUpTo (r : α → β → Prop) (left : List α) (right : List β) (n : Nat) : Prop where
  insideLeft : n ≤ left.length
  insideRight : n ≤ right.length
  items : List.Forall₂ r (left.take n) (right.take n)

/-- The lists match up to here, and no further. -/
def LongestMatch (r : α → β → Prop) (left : List α) (right : List β) (n : Nat) : Prop :=
  IsGreatest {n | MatchesUpTo r left right n} n

theorem matchesUpTo_zero (left : List α) (right : List β) : MatchesUpTo r left right 0 :=
  ⟨Nat.zero_le _, Nat.zero_le _, .nil⟩

/-- A pair in front matches together with what follows it. -/
theorem matchesUpTo_cons_succ {x : α} {y : β} {left : List α} {right : List β} {n : Nat} :
    MatchesUpTo r (x :: left) (y :: right) (n + 1) ↔ r x y ∧ MatchesUpTo r left right n := by
  constructor
  · rintro ⟨insideLeft, insideRight, items⟩
    rw [List.take_succ_cons, List.take_succ_cons, List.forall₂_cons] at items
    exact ⟨items.1, Nat.le_of_succ_le_succ insideLeft, Nat.le_of_succ_le_succ insideRight, items.2⟩
  · rintro ⟨first, insideLeft, insideRight, items⟩
    exact ⟨Nat.succ_le_succ insideLeft, Nat.succ_le_succ insideRight, .cons first items⟩

/-- Lists match up to one number only. -/
theorem LongestMatch.unique {left : List α} {right : List β} {n m : Nat}
    (one : LongestMatch r left right n) (two : LongestMatch r left right m) : n = m :=
  IsGreatest.unique one two

/-- The left list goes on after the match, or ends with it. -/
theorem LongestMatch.ne_left {left : List α} {right : List β} {n : Nat}
    (longest : LongestMatch r left right n) : n ≠ left.length ↔ n < left.length :=
  ⟨lt_of_le_of_ne longest.1.insideLeft, Nat.ne_of_lt⟩

theorem LongestMatch.ne_right {left : List α} {right : List β} {n : Nat}
    (longest : LongestMatch r left right n) : n ≠ right.length ↔ n < right.length :=
  ⟨lt_of_le_of_ne longest.1.insideRight, Nat.ne_of_lt⟩

theorem longestMatch_nil_left (right : List β) : LongestMatch r [] right 0 :=
  ⟨matchesUpTo_zero [] right, fun _ upTo => upTo.insideLeft⟩

theorem longestMatch_nil_right (left : List α) : LongestMatch r left [] 0 :=
  ⟨matchesUpTo_zero left [], fun _ upTo => upTo.insideRight⟩

/-- A pair that does not match ends the match. -/
theorem longestMatch_of_mismatch {x : α} {y : β} (mismatch : ¬r x y) (left : List α)
    (right : List β) : LongestMatch r (x :: left) (y :: right) 0 := by
  refine ⟨matchesUpTo_zero _ _, fun n upTo => ?_⟩
  cases n with
  | zero => exact Nat.le_refl 0
  | succ n => exact absurd (matchesUpTo_cons_succ.mp upTo).1 mismatch

/-- A pair that matches adds one. -/
theorem LongestMatch.cons {x : α} {y : β} {left : List α} {right : List β} {n : Nat}
    (first : r x y) (longest : LongestMatch r left right n) :
    LongestMatch r (x :: left) (y :: right) (n + 1) := by
  refine ⟨matchesUpTo_cons_succ.mpr ⟨first, longest.1⟩, fun m upTo => ?_⟩
  cases m with
  | zero => exact Nat.zero_le _
  | succ m => exact Nat.succ_le_succ (longest.2 (matchesUpTo_cons_succ.mp upTo).2)

/-- Lists that match from end to end match up to their length. -/
theorem longestMatch_of_forall₂ {left : List α} {right : List β} (all : List.Forall₂ r left right) :
    LongestMatch r left right left.length := by
  refine ⟨⟨Nat.le_refl _, all.length_eq.le, ?_⟩, fun _ upTo => upTo.insideLeft⟩
  rw [List.take_length, all.length_eq, List.take_length]
  exact all

end Codexec.Library.Matching
