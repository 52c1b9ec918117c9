/-
**Stretches of a sequence.**

How many items of one kind follow one another: `AtMost holds bound items` bounds every stretch, and
`Ends holds bound items` the one at the end. One more item of the kind makes the last stretch
longer, any other item ends it (`Ends.concat`, `Ends.concat_of_not`), so a bound on the last stretch
keeps the bound on all of them (`AtMost.concat`).
-/

import Mathlib.Data.List.Infix

namespace Codexec.Library.Stretch

variable {α : Type} {holds : α → Prop} {bound : Nat} {items : List α} {item : α}

/-- No more than so many items of a kind follow one another. -/
def AtMost (holds : α → Prop) (bound : Nat) (items : List α) : Prop :=
  ∀ part, part <:+: items → (∀ item ∈ part, holds item) → part.length ≤ bound

/-- No more than so many items of a kind are at the end. -/
def Ends (holds : α → Prop) (bound : Nat) (items : List α) : Prop :=
  ∀ part, part <:+ items → (∀ item ∈ part, holds item) → part.length ≤ bound

theorem AtMost.nil : AtMost holds bound [] := by
  intro part inside _
  rw [List.infix_nil.mp inside]
  exact Nat.zero_le _

theorem Ends.nil : Ends holds bound [] := by
  intro part inside _
  rw [List.suffix_nil.mp inside]
  exact Nat.zero_le _

/-- One more item makes the last stretch at most one longer. -/
theorem Ends.concat (ends : Ends holds bound items) :
    Ends holds (bound + 1) (items ++ [item]) := by
  intro part inside all
  rcases List.suffix_concat_iff.mp inside with rfl | ⟨rest, rfl, earlier⟩
  · exact Nat.zero_le _
  · rw [List.length_append, List.length_singleton]
    exact Nat.succ_le_succ (ends rest earlier fun item member => all item (by simp [member]))

/-- An item of another kind ends it. -/
theorem Ends.concat_of_not (other : ¬ holds item) : Ends holds bound (items ++ [item]) := by
  intro part inside all
  rcases List.suffix_concat_iff.mp inside with rfl | ⟨rest, rfl, -⟩
  · exact Nat.zero_le _
  · exact absurd (all item (by simp)) other

theorem Ends.mono {larger : Nat} (ends : Ends holds bound items) (le : bound ≤ larger) :
    Ends holds larger items :=
  fun part inside all => (ends part inside all).trans le

/-- **All stretches are bounded if the last one is.** -/
theorem AtMost.concat (bounded : AtMost holds bound items)
    (ends : Ends holds bound (items ++ [item])) : AtMost holds bound (items ++ [item]) := by
  intro part inside all
  rcases List.infix_concat_iff.mp inside with last | earlier
  · exact ends part last all
  · exact bounded part earlier all

theorem AtMost.of_part {part : List α} (bounded : AtMost holds bound items)
    (inside : part <:+: items) : AtMost holds bound part :=
  fun piece within => bounded piece (within.trans inside)

end Codexec.Library.Stretch
