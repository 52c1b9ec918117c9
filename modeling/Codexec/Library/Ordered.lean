/-
**Tables in the order of their keys.**

A row is placed where its key belongs, instead of the row under its key if there is one (`place`).
A table in order is determined by its rows (`Ordered.eq_of_perm`), so rows with different keys make
up one table, in whatever order they are placed (`placeAll_perm`).
-/

import Codexec.Library.Table
import Mathlib.Data.List.Sort

namespace Codexec.Library.Table

variable {α κ : Type} {key : α → κ} [LinearOrder κ]

/-- The rows stand in the order of their keys. -/
def Ordered (table : Table α key) : Prop :=
  table.rows.Pairwise fun one two => key one < key two

/-- The rows under other keys, and the row where it belongs among them. -/
def placed (rows : List α) (key : α → κ) (row : α) : List α :=
  (rows.filter fun old => key old ≠ key row).orderedInsert (fun one two => key one ≤ key two) row

theorem placed_perm (rows : List α) (row : α) :
    (placed rows key row).Perm (row :: rows.filter fun old => key old ≠ key row) :=
  List.perm_orderedInsert _ row _

/-- A row takes the place of the row under its key, if there is one. -/
def place (table : Table α key) (row : α) : Table α key where
  rows := placed table.rows key row
  keysNodup := by
    rw [((placed_perm table.rows row).map key).nodup_iff, List.map_cons, List.nodup_cons]
    refine ⟨fun inside => ?_, table.keysNodup.sublist (List.filter_sublist.map key)⟩
    obtain ⟨old, kept, same⟩ := List.mem_map.mp inside
    simpa [same] using (List.mem_filter.mp kept).2

/-- Rows are placed one after the other. -/
def placeAll (table : Table α key) (rows : List α) : Table α key := rows.foldl place table

theorem ordered_empty : (empty : Table α key).Ordered := List.Pairwise.nil

theorem Ordered.place {table : Table α key} (ordered : table.Ordered) (row : α) :
    (table.place row).Ordered := by
  have others : (table.rows.filter fun old => key old ≠ key row).Pairwise
      fun one two => key one ≤ key two := (ordered.filter _).imp le_of_lt
  have weak : (table.place row).rows.Pairwise fun one two => key one ≤ key two := by
    have : Std.Total fun one two : α => key one ≤ key two := ⟨fun _ _ => le_total _ _⟩
    have : IsTrans α fun one two => key one ≤ key two := ⟨fun _ _ _ => le_trans⟩
    exact List.Pairwise.orderedInsert row _ others
  have different : (table.place row).rows.Pairwise fun one two => key one ≠ key two :=
    List.pairwise_map.mp (table.place row).keysNodup
  exact (weak.and different).imp fun both => lt_of_le_of_ne both.1 both.2

theorem Ordered.placeAll {table : Table α key} (ordered : table.Ordered) (rows : List α) :
    (table.placeAll rows).Ordered := by
  induction rows generalizing table with
  | nil => exact ordered
  | cons row rest ih => exact ih (ordered.place row)

/-- **A table in order is determined by its rows.** -/
theorem Ordered.eq_of_perm {one two : Table α key} (ordered : one.Ordered) (ordered' : two.Ordered)
    (perm : one.rows.Perm two.rows) : one = two := by
  apply Table.ext
  refine perm.eq_of_pairwise ?_ ordered ordered'
  intro row row' _ _ before after
  exact absurd before (lt_asymm after)

/-- A row under a new key joins the rows. -/
theorem place_perm {table : Table α key} {row : α} (fresh : ∀ old ∈ table.rows, key old ≠ key row) :
    (table.place row).rows.Perm (row :: table.rows) := by
  have kept : (table.rows.filter fun old => key old ≠ key row) = table.rows :=
    List.filter_eq_self.mpr fun old stored => by simpa using fresh old stored
  have perm : (placed table.rows key row).Perm _ := placed_perm table.rows row
  rwa [kept] at perm

theorem placeAll_rows {table : Table α key} {rows : List α} (nodup : (rows.map key).Nodup)
    (fresh : ∀ row ∈ rows, ∀ old ∈ table.rows, key old ≠ key row) :
    (table.placeAll rows).rows.Perm (rows ++ table.rows) := by
  induction rows generalizing table with
  | nil => exact List.Perm.refl _
  | cons row rest ih =>
    rw [List.map_cons, List.nodup_cons] at nodup
    have first := place_perm (fresh row List.mem_cons_self)
    have fresh' : ∀ next ∈ rest, ∀ old ∈ (table.place row).rows, key old ≠ key next := by
      intro next inside old stored
      rcases List.mem_cons.mp (first.mem_iff.mp stored) with rfl | stored
      · exact fun same => nodup.1 (List.mem_map.mpr ⟨next, inside, same.symm⟩)
      · exact fresh next (List.mem_cons_of_mem _ inside) old stored
    exact (ih nodup.2 fresh').trans ((first.append_left rest).trans List.perm_middle)

/-- **Rows with different keys make up one table, in whatever order they are placed.** -/
theorem placeAll_perm {rows rows' : List α} (nodup : (rows.map key).Nodup)
    (perm : rows.Perm rows') :
    (empty : Table α key).placeAll rows = (empty : Table α key).placeAll rows' := by
  have nodup' : (rows'.map key).Nodup := (perm.map key).nodup_iff.mp nodup
  have nothing (list : List α) : ∀ row ∈ list, ∀ old ∈ (empty : Table α key).rows,
      key old ≠ key row := fun _ _ _ stored => absurd stored List.not_mem_nil
  refine (ordered_empty.placeAll rows).eq_of_perm (ordered_empty.placeAll rows') ?_
  have one := placeAll_rows nodup (nothing rows)
  have two := placeAll_rows nodup' (nothing rows')
  exact one.trans ((perm.append_right _).trans two.symm)

end Codexec.Library.Table
