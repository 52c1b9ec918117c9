/-
**Keyed tables.**

A `Table` is a list of rows whose keys are pairwise different, which is what a database table with
a primary key holds. The key constraint is a field, so a table with two rows under one key cannot
be built. The statements of a queue on top of such a table are a lookup (`get`), an update of the
rows a condition selects (`update`), the number of rows it selects (`affected`), an insertion under
a fresh key (`insert`) or under any key (`put`), the rows a condition keeps (`retain`) and the least
row of a selection (`first`). Each has one lemma that says what it does to `get`; the rows
themselves are needed only for counting.
-/

import Mathlib.Data.List.MinMax
import Mathlib.Data.List.Nodup
import Mathlib.Data.List.Perm.Basic

namespace Codexec.Library

/-- Rows with pairwise different keys. -/
structure Table (α : Type) {κ : Type} (key : α → κ) where
  rows : List α
  keysNodup : (rows.map key).Nodup

namespace Table

variable {α κ ρ : Type} {key : α → κ}

/-- The table without rows. -/
def empty : Table α key := ⟨[], List.nodup_nil⟩

@[ext] theorem ext {first second : Table α key} (rows : first.rows = second.rows) :
    first = second := by
  cases first
  cases second
  cases rows
  rfl

/-- `UPDATE ... WHERE selects`: the selected rows are rewritten, under the same keys. -/
def update (table : Table α key) (selects : α → Bool) (change : α → α)
    (keeps : ∀ row, key (change row) = key row) : Table α key where
  rows := table.rows.map fun row => if selects row then change row else row
  keysNodup := by
    have same : (key ∘ fun row => if selects row then change row else row) = key := by
      funext row
      simp only [Function.comp_apply]
      split
      · exact keeps row
      · rfl
    rw [List.map_map, same]
    exact table.keysNodup

theorem mem_update {table : Table α key} {selects : α → Bool} {change : α → α}
    {keeps : ∀ row, key (change row) = key row} {next : α} :
    next ∈ (table.update selects change keeps).rows ↔
      ∃ row ∈ table.rows, (if selects row then change row else row) = next :=
  List.mem_map

/-- The number of rows a condition selects, which is what an update reports. -/
def affected (table : Table α key) (selects : α → Bool) : Nat := table.rows.countP selects

/-- The selected row of least rank: `WHERE selects ORDER BY rank LIMIT 1`. -/
def first [LinearOrder ρ] (table : Table α key) (selects : α → Bool) (rank : α → ρ) : Option α :=
  (table.rows.filter selects).argmin rank

section Lookup

variable [DecidableEq κ]

/-- The row under a key. -/
def get (table : Table α key) (wanted : κ) : Option α :=
  table.rows.find? fun row => key row = wanted

/-- A new row under a key that is not in use. -/
def insert (table : Table α key) (row : α) (fresh : table.get (key row) = none) :
    Table α key where
  rows := table.rows ++ [row]
  keysNodup := by
    rw [List.map_append, List.nodup_append]
    refine ⟨table.keysNodup, List.nodup_singleton _, ?_⟩
    intro used inside new member same
    obtain ⟨old, stored, rfl⟩ := List.mem_map.mp inside
    rw [List.map_singleton, List.mem_singleton] at member
    have absent := List.find?_eq_none.mp fresh old stored
    rw [decide_eq_true_eq] at absent
    exact absent (same.trans member)

/-- A row takes the place of the row under its key, if there is one. -/
def put (table : Table α key) (row : α) : Table α key :=
  match fresh : table.get (key row) with
  | none => table.insert row fresh
  | some _ =>
    table.update (fun old => key old = key row) (fun old => if key old = key row then row else old)
      fun old => by split <;> simp [*]

/-- The rows that satisfy a condition. -/
def retain (table : Table α key) (keep : α → Bool) : Table α key where
  rows := table.rows.filter keep
  keysNodup := table.keysNodup.sublist (List.filter_sublist.map key)

/-! ### What is stored -/

theorem get_eq_some {table : Table α key} {wanted : κ} {row : α} :
    table.get wanted = some row ↔ row ∈ table.rows ∧ key row = wanted := by
  constructor
  · intro found
    exact ⟨List.mem_of_find?_eq_some found, by simpa using List.find?_some found⟩
  · rintro ⟨stored, rfl⟩
    cases found : table.get (key row) with
    | none => simpa using List.find?_eq_none.mp found row stored
    | some other =>
      have same : key other = key row := by simpa using List.find?_some found
      rw [List.inj_on_of_nodup_map table.keysNodup (List.mem_of_find?_eq_some found) stored same]

theorem get_eq_none {table : Table α key} {wanted : κ} :
    table.get wanted = none ↔ ∀ row ∈ table.rows, key row ≠ wanted := by
  simp [get]

theorem get_key {table : Table α key} {wanted : κ} {row : α} (found : table.get wanted = some row) :
    key row = wanted :=
  (get_eq_some.mp found).2

theorem get_of_mem {table : Table α key} {row : α} (stored : row ∈ table.rows) :
    table.get (key row) = some row :=
  get_eq_some.mpr ⟨stored, rfl⟩

/-- **Tables with related rows** in the same order have related rows under every key. -/
theorem get_related {related : α → α → Prop} {table other : Table α key}
    (rows : List.Forall₂ related table.rows other.rows)
    (same : ∀ row row', related row row' → key row' = key row) (wanted : κ) :
    Option.Rel related (table.get wanted) (other.get wanted) := by
  unfold get
  generalize table.rows = before, other.rows = after at rows
  induction rows with
  | nil => exact .none
  | @cons row row' _ _ first _ ih =>
    rw [List.find?_cons, List.find?_cons, same row row' first]
    by_cases found : key row = wanted
    · rw [decide_eq_true found]
      exact .some first
    · rw [decide_eq_false found]
      exact ih

@[simp] theorem get_empty (wanted : κ) : (empty : Table α key).get wanted = none := rfl

/-- **An update acts row by row.** -/
theorem get_update (table : Table α key) (selects : α → Bool) (change : α → α)
    (keeps : ∀ row, key (change row) = key row) (wanted : κ) :
    (table.update selects change keeps).get wanted =
      (table.get wanted).map fun row => if selects row then change row else row := by
  have same : ∀ row, key (if selects row then change row else row) = key row := by
    intro row
    split
    · exact keeps row
    · rfl
  simp only [get, update, List.find?_map, Function.comp_def, same]

/-- A row selected by an update. -/
theorem get_update_of_selected {table : Table α key} {selects : α → Bool} {change : α → α}
    {keeps : ∀ row, key (change row) = key row} {wanted : κ} {row : α}
    (found : table.get wanted = some row) (selected : selects row = true) :
    (table.update selects change keeps).get wanted = some (change row) := by
  rw [get_update, found, Option.map_some, if_pos selected]

/-- A row an update passes over. -/
theorem get_update_of_unselected {table : Table α key} {selects : α → Bool} {change : α → α}
    {keeps : ∀ row, key (change row) = key row} {wanted : κ} {row : α}
    (found : table.get wanted = some row) (passed : selects row = false) :
    (table.update selects change keeps).get wanted = some row := by
  rw [get_update, found, Option.map_some, passed]
  rfl

/-- **An insertion adds its row and changes no other.** -/
theorem get_insert (table : Table α key) (row : α) (fresh : table.get (key row) = none)
    (wanted : κ) :
    (table.insert row fresh).get wanted =
      if key row = wanted then some row else table.get wanted := by
  simp only [get, insert, List.find?_append]
  by_cases same : key row = wanted
  · subst same
    have absent : table.rows.find? (fun other => decide (key other = key row)) = none := fresh
    simp [absent]
  · simp [same]

/-- **What happens to each row under its key happens to the rows.** -/
theorem rows_perm_map {table after : Table α key} {change : α → α}
    (keeps : ∀ row, key (change row) = key row)
    (each : ∀ wanted, after.get wanted = (table.get wanted).map change) :
    after.rows.Perm (table.rows.map change) := by
  have nodup : (table.rows.map change).Nodup := by
    refine List.Nodup.of_map key ?_
    rw [List.map_map, show key ∘ change = key from funext keeps]
    exact table.keysNodup
  rw [List.perm_ext_iff_of_nodup (List.Nodup.of_map key after.keysNodup) nodup]
  intro next
  rw [List.mem_map]
  constructor
  · intro stored
    have found := (each (key next)).symm.trans (get_of_mem stored)
    obtain ⟨row, held, same⟩ := Option.map_eq_some_iff.mp found
    exact ⟨row, (get_eq_some.mp held).1, same⟩
  · rintro ⟨row, stored, rfl⟩
    have found := each (key row)
    rw [get_of_mem stored] at found
    exact (get_eq_some.mp found).1

/-- **A row that is put is found, and every other one is as it was.** -/
theorem get_put (table : Table α key) (row : α) (wanted : κ) :
    (table.put row).get wanted = if key row = wanted then some row else table.get wanted := by
  unfold put
  split
  · exact get_insert table row _ wanted
  · next old found =>
    rw [get_update]
    by_cases same : key row = wanted
    · subst same
      simp [found, get_key found]
    · rw [if_neg same]
      cases other : table.get wanted with
      | none => rfl
      | some row' =>
        have different : ¬ key row' = key row := fun equal => same (equal.symm.trans (get_key other))
        simp [different]

/-- **The rows that are retained are those of the table.** -/
theorem get_retain (table : Table α key) (keep : α → Bool) (wanted : κ) :
    (table.retain keep).get wanted = (table.get wanted).filter keep := by
  cases found : table.get wanted with
  | none =>
    rw [Option.filter_none, get_eq_none]
    exact fun row inside => get_eq_none.mp found row (List.mem_filter.mp inside).1
  | some row =>
    obtain ⟨stored, same⟩ := get_eq_some.mp found
    by_cases kept : keep row = true
    · rw [Option.filter_some, if_pos kept, get_eq_some]
      exact ⟨List.mem_filter.mpr ⟨stored, kept⟩, same⟩
    · rw [Option.filter_some, if_neg kept, get_eq_none]
      intro other inside equal
      obtain ⟨stored', kept'⟩ := List.mem_filter.mp inside
      have again : some other = some row := by
        rw [← found]
        exact (get_eq_some.mpr ⟨stored', equal⟩).symm
      exact kept (Option.some.inj again ▸ kept')

/-- **A column without repetitions determines the row.** -/
theorem eq_of_column {column : α → Option ρ} {rows : List α} (nodup : (rows.filterMap column).Nodup)
    {one two : α} (inside : one ∈ rows) (inside' : two ∈ rows) {value : ρ}
    (here : column one = some value) (here' : column two = some value) : one = two := by
  induction rows with
  | nil => cases inside
  | cons row rows ih =>
    have later : ∀ other ∈ rows, column other = some value → column row ≠ some value := by
      intro other member holds same
      rw [List.filterMap_cons_some same, List.nodup_cons] at nodup
      exact nodup.1 (List.mem_filterMap.mpr ⟨other, member, holds⟩)
    have rest : (rows.filterMap column).Nodup :=
      nodup.sublist ((List.sublist_cons_self row rows).filterMap column)
    rcases List.mem_cons.mp inside with rfl | member
    · rcases List.mem_cons.mp inside' with rfl | member'
      · rfl
      · exact absurd here (later two member' here')
    · rcases List.mem_cons.mp inside' with rfl | member'
      · exact absurd here' (later one member here)
      · exact ih rest member member'

/-! ### Counting -/

omit [DecidableEq κ] in
/-- A condition splits the rows that another one selects. -/
theorem affected_split (table : Table α key) (selects part : α → Bool) :
    table.affected (fun row => selects row && part row) +
      table.affected (fun row => selects row && !part row) = table.affected selects := by
  unfold affected
  induction table.rows with
  | nil => rfl
  | cons row rest ih =>
    rw [List.countP_cons, List.countP_cons, List.countP_cons, ← ih]
    by_cases selected : selects row = true
    · by_cases inside : part row = true
      · simp only [selected, inside, Bool.and_self, Bool.not_true, Bool.and_false, if_true,
          Bool.false_eq_true, if_false]
        omega
      · simp only [selected, Bool.eq_false_iff.mpr inside, Bool.and_self, Bool.not_false,
          Bool.and_false, if_true, Bool.false_eq_true, if_false]
        omega
    · simp only [Bool.eq_false_iff.mpr selected, Bool.false_and, Bool.false_eq_true, if_false]
      omega

/-- A count after one row was exchanged for another. -/
theorem countP_set_add {rows : List α} {index : Nat} {old : α} (here : rows[index]? = some old)
    (holds : α → Bool) (new : α) :
    (rows.set index new).countP holds + (holds old).toNat =
      rows.countP holds + (holds new).toNat := by
  obtain ⟨bound, rfl⟩ := List.getElem?_eq_some_iff.mp here
  have before := (List.getElem_cons_eraseIdx_perm bound).countP_eq holds
  have after := (List.set_perm_cons_eraseIdx bound new).countP_eq holds
  rw [List.countP_cons] at before after
  cases one : holds rows[index] <;> cases two : holds new <;> simp [one, two] at * <;> omega

/-- A count that is row by row the sum of two others. -/
theorem countP_add {rows : List α} {whole one two : α → Bool}
    (each : ∀ row ∈ rows, (whole row).toNat = (one row).toNat + (two row).toNat) :
    rows.countP whole = rows.countP one + rows.countP two := by
  have counts (part : α → Bool) (row : α) : (if part row = true then 1 else 0) = (part row).toNat := by
    cases part row <;> rfl
  induction rows with
  | nil => rfl
  | cons row rest ih =>
    have first := each row List.mem_cons_self
    have others := ih fun other inside => each other (List.mem_cons_of_mem _ inside)
    rw [List.countP_cons, List.countP_cons, List.countP_cons, counts, counts, counts]
    omega

/-- Among rows with different keys, one key and a condition select at most one. -/
theorem countP_key {rows : List α} (nodup : (rows.map key).Nodup) (wanted : κ)
    (selects : α → Bool) :
    rows.countP (fun row => decide (key row = wanted) && selects row) =
      ((rows.find? fun row => key row = wanted).filter selects).toList.length := by
  induction rows with
  | nil => rfl
  | cons head rest ih =>
    rw [List.map_cons, List.nodup_cons] at nodup
    rw [List.countP_cons, List.find?_cons, ih nodup.2]
    by_cases same : key head = wanted
    · have absent : rest.find? (fun row => decide (key row = wanted)) = none := by
        rw [List.find?_eq_none]
        intro row inside
        rw [decide_eq_true_eq]
        intro other
        exact nodup.1 (List.mem_map.mpr ⟨row, inside, other.trans same.symm⟩)
      rw [absent]
      by_cases selected : selects head = true <;> simp [same, selected, Option.filter_some]
    · simp [same]

/-- **A condition on one key selects at most one row.** -/
theorem affected_key (table : Table α key) (wanted : κ) (selects : α → Bool) :
    table.affected (fun row => decide (key row = wanted) && selects row) =
      ((table.get wanted).filter selects).toList.length :=
  countP_key table.keysNodup wanted selects

/-- The row a one-key update reports, if it reports one. -/
theorem affected_key_eq_one {table : Table α key} {wanted : κ} {selects : α → Bool} :
    table.affected (fun row => decide (key row = wanted) && selects row) = 1 ↔
      ∃ row, table.get wanted = some row ∧ selects row = true := by
  rw [affected_key]
  cases table.get wanted with
  | none => simp
  | some row => by_cases selected : selects row = true <;> simp [selected]

/-- **Rewriting one row** moves a count by what that row counts for. -/
theorem affected_rewrite {table : Table α key} {wanted : κ} {row : α}
    (found : table.get wanted = some row) (change : α → α) (keeps : ∀ row, key (change row) = key row)
    (counts : α → Bool) :
    (table.update (fun other => key other = wanted) change keeps).affected counts +
        (counts row).toNat = table.affected counts + (counts (change row)).toNat := by
  obtain ⟨stored, rfl⟩ := get_eq_some.mp found
  obtain ⟨before, after, split⟩ := List.append_of_mem stored
  have distinct := table.keysNodup
  rw [split, List.map_append, List.map_cons, List.nodup_middle, List.nodup_cons,
    ← List.map_append] at distinct
  have others : ∀ part : List α, (∀ other ∈ part, other ∈ before ++ after) →
      part.map (fun other => if decide (key other = key row) = true then change other else other) =
        part := by
    intro part inside
    have same : ∀ other ∈ part,
        (if decide (key other = key row) = true then change other else other) = id other := by
      intro other member
      have different : key other ≠ key row := fun equal =>
        distinct.1 (equal ▸ List.mem_map_of_mem (inside other member))
      simp [different]
    rw [List.map_congr_left same, List.map_id]
  have one (part : Bool) : (if part = true then 1 else 0) = part.toNat := by cases part <;> rfl
  simp only [affected, update, split, List.map_append, List.map_cons, decide_true, if_true,
    List.countP_append, List.countP_cons, one]
  rw [others before fun _ => List.mem_append_left _, others after fun _ => List.mem_append_right _]
  omega

end Lookup

/-! ### Selection -/

variable [LinearOrder ρ]

/-- **The selected row is stored, satisfies the condition and has least rank.** -/
theorem first_spec {table : Table α key} {selects : α → Bool} {rank : α → ρ} {row : α}
    (found : table.first selects rank = some row) :
    row ∈ table.rows ∧ selects row = true ∧
      ∀ other ∈ table.rows, selects other = true → rank row ≤ rank other := by
  have inside := List.mem_filter.mp (List.argmin_mem found)
  refine ⟨inside.1, inside.2, fun other stored selected => ?_⟩
  exact List.le_of_mem_argmin (List.mem_filter.mpr ⟨stored, selected⟩) found

end Table

end Codexec.Library
