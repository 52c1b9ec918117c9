/-
**Bounded windows over a ranked collection.**

`newest rank limit rows` lists the rows of highest rank, at most `limit` of them, the highest first;
it is what `ORDER BY ... DESC LIMIT ...` answers. `IsNewest` says what such a list is without saying
how it is computed, and determines it (`IsNewest.unique`). The ranks that are listed form a window
that is kept up to date one rank at a time: a new rank is put in its place and the lowest one leaves
when there are too many (`push`), however many rows there are that the window does not show
(`newest_cons`, `ranks_append`).
-/

import Mathlib.Data.List.Sort
import Mathlib.Data.List.Nodup

namespace Codexec.Library

variable {α ρ : Type} [LinearOrder ρ]

/-- The rows of highest rank, the highest first. -/
def newest (rank : α → ρ) (limit : Nat) (rows : List α) : List α :=
  (rows.insertionSort fun one two => rank two ≤ rank one).take limit

/-- A window after one more rank. -/
def push (limit : Nat) (window : List ρ) (rank : ρ) : List ρ :=
  (window.orderedInsert (fun one two => two ≤ one) rank).take limit

/-- What it means to list the rows of highest rank. -/
structure IsNewest (rank : α → ρ) (limit : Nat) (rows window : List α) : Prop where
  ordered : window.Pairwise fun one two => rank two < rank one
  stored : ∀ row ∈ window, row ∈ rows
  bounded : window.length ≤ limit
  /-- What is not listed is older than everything that is, and there is no room for it. -/
  full : ∀ row ∈ rows, row ∉ window →
    window.length = limit ∧ ∀ listed ∈ window, rank row < rank listed

namespace IsNewest

variable {rank : α → ρ} {limit : Nat} {rows window window' : List α}

/-- A row that one window lists and another does not, of the same rows. -/
theorem length_lt (one : IsNewest rank limit rows window) (two : IsNewest rank limit rows window')
    {row : α} (listed : row ∈ window) (missing : row ∉ window') :
    ∃ other ∈ window', other ∉ window := by
  obtain ⟨filled, newer⟩ := two.full row (one.stored row listed) missing
  by_contra none
  have inside : ∀ other ∈ window', other ∈ window := by
    intro other member
    by_contra absent
    exact none ⟨other, member, absent⟩
  have distinct : (row :: window').Nodup := by
    refine List.nodup_cons.mpr ⟨missing, two.ordered.imp ?_⟩
    rintro first second less rfl
    exact lt_irrefl _ less
  have counted : (row :: window').length ≤ window.length := by
    refine (List.subperm_of_subset distinct fun other member => ?_).length_le
    rcases List.mem_cons.mp member with rfl | member
    · exact listed
    · exact inside other member
  have bound := one.bounded
  rw [List.length_cons] at counted
  omega

theorem subset (one : IsNewest rank limit rows window) (two : IsNewest rank limit rows window') :
    ∀ row ∈ window, row ∈ window' := by
  intro row listed
  by_contra missing
  obtain ⟨other, listed', missing'⟩ := length_lt one two listed missing
  have above := (two.full row (one.stored row listed) missing).2 other listed'
  have below := (one.full other (two.stored other listed') missing').2 row listed
  exact lt_asymm above below

/-- **The rows and the limit determine the list.** -/
theorem unique (one : IsNewest rank limit rows window) (two : IsNewest rank limit rows window') :
    window = window' := by
  have distinct {list : List α} (ordered : list.Pairwise fun one two => rank two < rank one) :
      list.Nodup := by
    refine ordered.imp ?_
    rintro first second less rfl
    exact lt_irrefl _ less
  have perm : window.Perm window' := by
    rw [List.perm_ext_iff_of_nodup (distinct one.ordered) (distinct two.ordered)]
    exact fun row => ⟨subset one two row, subset two one row⟩
  refine perm.eq_of_pairwise ?_ one.ordered two.ordered
  intro first second _ _ less more
  exact absurd less (lt_asymm more)

/-- **The highest row, and then the highest ones of the others.** -/
theorem cons {others : List α} {row : α} (top : row ∈ rows)
    (rest : IsNewest rank limit others window)
    (split : ∀ other, other ∈ others ↔ other ∈ rows ∧ other ≠ row)
    (highest : ∀ other ∈ others, rank other < rank row) :
    IsNewest rank (limit + 1) rows (row :: window) := by
  refine ⟨List.pairwise_cons.mpr ⟨fun other listed => ?_, rest.ordered⟩, ?_, ?_, ?_⟩
  · exact highest other (rest.stored other listed)
  · intro other listed
    rcases List.mem_cons.mp listed with rfl | listed
    · exact top
    · exact ((split other).mp (rest.stored other listed)).1
  · exact Nat.succ_le_succ rest.bounded
  · intro other stored missing
    rw [List.mem_cons, not_or] at missing
    have left := (split other).mpr ⟨stored, missing.1⟩
    obtain ⟨filled, older⟩ := rest.full other left missing.2
    refine ⟨congrArg Nat.succ filled, fun listed shown => ?_⟩
    rcases List.mem_cons.mp shown with rfl | shown
    · exact highest other left
    · exact older listed shown

end IsNewest

section Newest

variable {rank : α → ρ} {limit : Nat} {rows rows' : List α}

theorem sorted_newest (rank : α → ρ) (rows : List α) :
    (rows.insertionSort fun one two => rank two ≤ rank one).Pairwise
      fun one two => rank two ≤ rank one := by
  have : Std.Total fun one two : α => rank two ≤ rank one := ⟨fun _ _ => le_total _ _⟩
  have : IsTrans α fun one two => rank two ≤ rank one := ⟨fun _ _ _ one two => le_trans two one⟩
  exact List.pairwise_insertionSort _ rows

/-- **The list holds the rows of highest rank**, when no two rows have the same rank. -/
theorem newest_isNewest (distinct : (rows.map rank).Nodup) (limit : Nat) :
    IsNewest rank limit rows (newest rank limit rows) := by
  have perm := List.perm_insertionSort (fun one two : α => rank two ≤ rank one) rows
  have strict : (rows.insertionSort fun one two => rank two ≤ rank one).Pairwise
      fun one two => rank two < rank one := by
    have different := List.pairwise_map.mp ((perm.map rank).nodup_iff.mpr distinct)
    exact ((sorted_newest rank rows).and different).imp fun both =>
      lt_of_le_of_ne both.1 both.2.symm
  unfold newest
  generalize rows.insertionSort (fun one two => rank two ≤ rank one) = sorted at perm strict
  refine ⟨strict.sublist (List.take_sublist _ _), ?_, List.length_take_le _ _, ?_⟩
  · exact fun row listed => perm.mem_iff.mp (List.mem_of_mem_take listed)
  · intro row stored missing
    have parts := List.take_append_drop limit sorted
    have later : row ∈ sorted.drop limit := by
      have inside := perm.mem_iff.mpr stored
      rw [← parts, List.mem_append] at inside
      exact inside.resolve_left missing
    have room : limit < sorted.length := by
      by_contra small
      rw [List.drop_eq_nil_of_le (Nat.le_of_not_lt small)] at later
      cases later
    refine ⟨List.length_take_of_le (Nat.le_of_lt room), fun listed shown => ?_⟩
    rw [← parts, List.pairwise_append] at strict
    exact strict.2.2 listed shown row later

@[simp] theorem newest_nil : newest rank limit [] = [] := List.take_nil

/-- **The order in which the rows are stored does not matter.** -/
theorem newest_perm (distinct : (rows.map rank).Nodup) (perm : rows.Perm rows') (limit : Nat) :
    newest rank limit rows = newest rank limit rows' := by
  have distinct' : (rows'.map rank).Nodup := (perm.map rank).nodup_iff.mp distinct
  refine (newest_isNewest distinct limit).unique ?_
  have other := newest_isNewest distinct' limit
  refine ⟨other.ordered, fun row listed => perm.mem_iff.mpr (other.stored row listed),
    other.bounded, fun row stored => other.full row (perm.mem_iff.mp stored)⟩

theorem length_newest : (newest rank limit rows).length = min limit rows.length := by
  rw [newest, List.length_take, List.length_insertionSort]

/-- The ranks that are listed are the highest ranks. -/
theorem map_newest (rank : α → ρ) (limit : Nat) (rows : List α) :
    (newest rank limit rows).map rank = newest id limit (rows.map rank) := by
  rw [newest, newest, List.map_take]
  congr 1
  exact List.map_insertionSort _ _ rank rows fun _ _ _ _ => Iff.rfl

end Newest

/-! ### One rank more -/

omit [LinearOrder ρ] in
/-- An insertion above the cut does not look below it. -/
theorem take_orderedInsert {r : ρ → ρ → Prop} [DecidableRel r] (rank : ρ) (limit : Nat)
    (ranks : List ρ) :
    (ranks.orderedInsert r rank).take limit =
      ((ranks.take limit).orderedInsert r rank).take limit := by
  induction ranks generalizing limit with
  | nil => rw [List.take_nil]
  | cons first rest ih =>
    cases limit with
    | zero => rw [List.take_zero, List.take_zero]
    | succ limit =>
      rw [List.take_succ_cons]
      by_cases before : r rank first
      · rw [List.orderedInsert_cons_of_le _ _ before, List.orderedInsert_cons_of_le _ _ before,
          List.take_succ_cons, List.take_succ_cons]
        cases limit with
        | zero => rw [List.take_zero, List.take_zero]
        | succ limit =>
          rw [List.take_succ_cons, List.take_succ_cons, List.take_take,
            Nat.min_eq_left (Nat.le_succ limit)]
      · rw [List.orderedInsert_of_not_le _ _ before, List.orderedInsert_of_not_le _ _ before,
          List.take_succ_cons, List.take_succ_cons, ih]

/-- **A window follows its rows one rank at a time.** -/
theorem newest_cons (limit : Nat) (rank : ρ) (ranks : List ρ) :
    newest id limit (rank :: ranks) = push limit (newest id limit ranks) rank := by
  rw [newest, List.insertionSort_cons, take_orderedInsert]
  rfl

/-- A new rank joins the ranks at the end. -/
theorem newest_append {limit : Nat} {ranks : List ρ} {rank : ρ}
    (distinct : (ranks ++ [rank]).Nodup) :
    newest id limit (ranks ++ [rank]) = push limit (newest id limit ranks) rank := by
  rw [← newest_cons]
  refine newest_perm ?_ (List.perm_append_singleton rank ranks) limit
  rw [List.map_id]
  exact distinct

theorem mem_push {limit : Nat} {window : List ρ} {rank listed : ρ}
    (inside : listed ∈ push limit window rank) : listed = rank ∨ listed ∈ window := by
  have inserted := List.mem_of_mem_take inside
  rwa [List.mem_orderedInsert] at inserted

end Codexec.Library
