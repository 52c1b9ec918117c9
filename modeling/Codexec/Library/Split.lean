/-
**Texts split at separators.**

`words` are the pieces between separators that are not empty: the maximal runs of other items
(`words_eq_iff`). They do not depend on how the separators between them are laid out
(`words_relaid`), and can be collected piece by piece of a coarser split (`words_flatMap`).
`trimmedLines` are the pieces without the blanks at their ends and without the empty pieces at the
end of the text: a normal form (`trimmedLines_unlines`) for the equivalence generated by adding such
blanks and such pieces (`trimmedLines_eq_iff`). Both are shown by induction on the separators
(`split_induction`).
-/

import Mathlib.Data.List.DropRight
import Mathlib.Logic.Relation

namespace Codexec.Library.Split

open List

variable {α : Type}

/-! ### Splitting -/

/-- A text has no separator, or it has a first one. -/
theorem split_induction {motive : List α → Prop} (isSep : α → Bool)
    (free : ∀ text, (∀ x ∈ text, isSep x = false) → motive text)
    (cut : ∀ before sep after, (∀ x ∈ before, isSep x = false) → isSep sep = true → motive after →
      motive (before ++ sep :: after)) (text : List α) : motive text := by
  generalize size : text.length = n
  induction n using Nat.strongRecOn generalizing text with
  | ind n ih =>
    cases found : text.find? isSep with
    | none =>
      refine free text fun x inside => ?_
      simpa using List.find?_eq_none.mp found x inside
    | some sep =>
      obtain ⟨here, before, after, rfl, none⟩ := List.find?_eq_some_iff_append.mp found
      refine cut before sep after (fun x inside => by simpa using none x inside) here ?_
      refine ih after.length ?_ after rfl
      rw [← size, List.length_append, List.length_cons]
      omega

/-- What is dropped at the end may be appended. -/
theorem rdropWhile_append_of_all {drops : α → Bool} (text : List α) {tail : List α}
    (all : ∀ x ∈ tail, drops x = true) :
    (text ++ tail).rdropWhile drops = text.rdropWhile drops := by
  have reversed : ∀ x ∈ tail.reverse, drops x = true := fun x inside =>
    all x (List.mem_reverse.mp inside)
  rw [rdropWhile, rdropWhile, List.reverse_append, List.dropWhile_append_of_pos reversed]

/-- What is dropped at the end is all to be dropped. -/
theorem exists_rdropWhile_append (drops : α → Bool) (text : List α) :
    ∃ tail, text = text.rdropWhile drops ++ tail ∧ ∀ x ∈ tail, drops x = true :=
  ⟨text.rtakeWhile drops, rdropWhile_append_rtakeWhile.symm, fun _ => mem_rtakeWhile_imp⟩

theorem mem_of_rdropWhile {drops : α → Bool} {text : List α} {x : α}
    (inside : x ∈ text.rdropWhile drops) : x ∈ text := by
  have part := rdropWhile_prefix drops text
  exact part.subset inside

/-! ### Words -/

section Words

variable (isSpace : α → Bool)

/-- The pieces between separators that are not empty. -/
def words (text : List α) : List (List α) :=
  (text.splitOnP isSpace).filter fun word => !word.isEmpty

theorem words_nil : words isSpace ([] : List α) = [] := rfl

variable {isSpace}

theorem words_append_cons (before after : List α) {sep : α} (space : isSpace sep = true) :
    words isSpace (before ++ sep :: after) = words isSpace before ++ words isSpace after := by
  rw [words, List.splitOnP_append_cons before after space, List.filter_append, words, words]

/-- Separators at the end are in no word. -/
theorem words_append_spaces (text : List α) {tail : List α}
    (spaces : ∀ x ∈ tail, isSpace x = true) :
    words isSpace (text ++ tail) = words isSpace text := by
  induction tail using List.reverseRecOn with
  | nil => rw [List.append_nil]
  | append_singleton tail sep ih =>
    have earlier := ih fun x inside => spaces x (List.mem_append_left _ inside)
    rw [← List.append_assoc, words_append_cons _ _ (spaces sep (by simp)), earlier, words_nil,
      List.append_nil]

/-- The words of a text are the words of its lines. -/
theorem words_flatMap {isBreak : α → Bool} (breaks : ∀ x, isBreak x = true → isSpace x = true)
    (text : List α) : (text.splitOnP isBreak).flatMap (words isSpace) = words isSpace text := by
  induction text using split_induction isBreak with
  | free text none =>
    rw [List.splitOnP_eq_singleton none, List.flatMap_singleton]
  | cut before sep after none here ih =>
    rw [List.splitOnP_append_cons_of_forall_mem none sep here, List.flatMap_cons, ih,
      words_append_cons before after (breaks sep here)]

/-- Separators at the front are in no word. -/
theorem words_spaces_append {head : List α} (spaces : ∀ x ∈ head, isSpace x = true)
    (text : List α) : words isSpace (head ++ text) = words isSpace text := by
  induction head with
  | nil => rfl
  | cons sep rest ih =>
    have later := ih fun x inside => spaces x (List.mem_cons_of_mem _ inside)
    have cut := words_append_cons [] (rest ++ text) (spaces sep List.mem_cons_self)
    rw [words_nil, List.nil_append, List.nil_append, later] at cut
    exact cut

/-- Separators cut a text into words. -/
theorem words_append_spaces_append (before after : List α) {run : List α} (some : run ≠ [])
    (spaces : ∀ x ∈ run, isSpace x = true) :
    words isSpace (before ++ run ++ after) = words isSpace before ++ words isSpace after := by
  cases run with
  | nil => exact absurd rfl some
  | cons sep rest =>
    have later : ∀ x ∈ rest, isSpace x = true := fun x inside =>
      spaces x (List.mem_cons_of_mem _ inside)
    rw [List.append_assoc, List.cons_append,
      words_append_cons before _ (spaces sep List.mem_cons_self), words_spaces_append later]

/-- A text without separators is one word. -/
theorem words_of_solid {word : List α} (some : word ≠ []) (solid : ∀ x ∈ word, isSpace x = false) :
    words isSpace word = [word] := by
  rw [words, List.splitOnP_eq_singleton solid]
  simp [some]

variable (isSpace) in
/-- The maximal runs of items that are no separators, in order. -/
inductive Runs : List α → List (List α) → Prop
  | none {spaces : List α} (all : ∀ x ∈ spaces, isSpace x = true) : Runs spaces []
  | run {spaces word rest : List α} {words : List (List α)}
      (all : ∀ x ∈ spaces, isSpace x = true) (some : word ≠ [])
      (solid : ∀ x ∈ word, isSpace x = false)
      (ends : rest = [] ∨ ∃ sep tail, rest = sep :: tail ∧ isSpace sep = true)
      (later : Runs rest words) : Runs (spaces ++ (word ++ rest)) (word :: words)

/-- A separator in front belongs to no run. -/
theorem Runs.space {text : List α} {words : List (List α)} (runs : Runs isSpace text words)
    {sep : α} (here : isSpace sep = true) : Runs isSpace (sep :: text) words := by
  cases runs with
  | none all => exact .none (List.forall_mem_cons.mpr ⟨here, all⟩)
  | run all some solid ends later =>
    rw [← List.cons_append]
    exact .run (List.forall_mem_cons.mpr ⟨here, all⟩) some solid ends later

theorem Runs.words_eq {text : List α} {runs : List (List α)} (found : Runs isSpace text runs) :
    words isSpace text = runs := by
  induction found with
  | none all => exact words_append_spaces [] all
  | @run spaces word rest later all some solid ends _ ih =>
    rw [words_spaces_append all]
    rcases ends with rfl | ⟨sep, tail, rfl, here⟩
    · rw [← ih, List.append_nil, words_of_solid some solid, words_nil]
    · have cut := words_append_cons [] tail here
      rw [List.nil_append, ih, words_nil, List.nil_append] at cut
      rw [words_append_cons word tail here, words_of_solid some solid, ← cut, List.singleton_append]

theorem runs_words (text : List α) : Runs isSpace text (words isSpace text) := by
  induction text using split_induction isSpace with
  | free text solid =>
    by_cases empty : text = []
    · rw [empty]
      exact .none fun _ inside => absurd inside List.not_mem_nil
    · rw [words_of_solid empty solid]
      have run := Runs.run (fun _ inside => absurd inside List.not_mem_nil) empty
        solid (.inl rfl) (.none fun _ inside => absurd inside List.not_mem_nil)
      rwa [List.nil_append, List.append_nil] at run
  | cut before sep after solid here ih =>
    rw [words_append_cons before after here]
    by_cases empty : before = []
    · rw [empty, words_nil]
      exact ih.space here
    · rw [words_of_solid empty solid]
      exact .run (fun _ inside => absurd inside List.not_mem_nil) empty solid
        (.inr ⟨sep, after, rfl, here⟩) (ih.space here)

/-- **The words are the maximal runs.** -/
theorem words_eq_iff {text : List α} {runs : List (List α)} :
    words isSpace text = runs ↔ Runs isSpace text runs := by
  constructor
  · rintro rfl
    exact runs_words text
  · exact Runs.words_eq

variable (isSpace) in
/-- The separators are laid out in another way. -/
inductive Relaid : List α → List α → Prop
  | between (before after : List α) {run run' : List α} (some : run ≠ []) (some' : run' ≠ [])
      (spaces : ∀ x ∈ run, isSpace x = true) (spaces' : ∀ x ∈ run', isSpace x = true) :
      Relaid (before ++ run ++ after) (before ++ run' ++ after)
  | front (text : List α) {run : List α} (spaces : ∀ x ∈ run, isSpace x = true) :
      Relaid text (run ++ text)
  | back (text : List α) {run : List α} (spaces : ∀ x ∈ run, isSpace x = true) :
      Relaid text (text ++ run)

/-- **The layout does not matter to the words.** -/
theorem words_relaid {text text' : List α} (relaid : Relaid isSpace text text') :
    words isSpace text' = words isSpace text := by
  cases relaid with
  | between before after some some' spaces spaces' =>
    rw [words_append_spaces_append before after some spaces,
      words_append_spaces_append before after some' spaces']
  | front _ spaces => exact words_spaces_append spaces text
  | back _ spaces => exact words_append_spaces text spaces

end Words

/-! ### Lines -/

section Lines

variable [DecidableEq α] {newline : α} {isBlank : α → Bool}

/-- The lines without the blanks at their ends. -/
def stripped (newline : α) (isBlank : α → Bool) (text : List α) : List (List α) :=
  (text.splitOn newline).map (rdropWhile isBlank)

/-- The lines without the blanks at their ends and without the empty lines at the end. -/
def trimmedLines (newline : α) (isBlank : α → Bool) (text : List α) : List (List α) :=
  (stripped newline isBlank text).rdropWhile List.isEmpty

theorem stripped_append_cons (before after : List α) :
    stripped newline isBlank (before ++ newline :: after) =
      stripped newline isBlank before ++ stripped newline isBlank after := by
  rw [stripped, List.splitOn_append_cons_self, List.map_append, stripped, stripped]

/-- A text has one line, or a first line and further ones. -/
theorem lines_induction {motive : List α → Prop} (newline : α)
    (last : ∀ text, newline ∉ text → motive text)
    (more : ∀ before after, newline ∉ before → motive after → motive (before ++ newline :: after))
    (text : List α) : motive text := by
  induction text using split_induction (· == newline) with
  | free text none => exact last text fun inside => by simpa using none newline inside
  | cut before sep after none here ih =>
    rw [beq_iff_eq] at here
    subst here
    exact more before after (fun inside => by simpa using none sep inside) ih

theorem stripped_of_free {text : List α} (free : newline ∉ text) :
    stripped newline isBlank text = [text.rdropWhile isBlank] := by
  rw [stripped, List.splitOn_eq_singleton free, List.map_singleton]

theorem stripped_nil : stripped newline isBlank [] = [[]] := stripped_of_free List.not_mem_nil

/-- No line has a line break in it. -/
theorem not_mem_of_splitOn (text : List α) : ∀ line ∈ text.splitOn newline, newline ∉ line := by
  induction text using lines_induction newline with
  | last text free =>
    rw [List.splitOn_eq_singleton free]
    intro line inside
    rwa [List.mem_singleton.mp inside]
  | more before after free ih =>
    rw [List.splitOn_append_cons_self_of_not_mem free]
    intro line inside
    rcases List.mem_cons.mp inside with rfl | inside
    · exact free
    · exact ih line inside

omit [DecidableEq α] in
/-- White space without a line break is blank. -/
theorem blanks_of_spaces {text : List α} (free : newline ∉ text)
    (spaces : ∀ x ∈ text, isBlank x = true ∨ x = newline) : ∀ x ∈ text, isBlank x = true :=
  fun x inside => (spaces x inside).resolve_right fun same => free (same ▸ inside)

/-- Lines of blanks are empty. -/
theorem stripped_of_spaces {tail : List α} (spaces : ∀ x ∈ tail, isBlank x = true ∨ x = newline) :
    ∀ line ∈ stripped newline isBlank tail, line = [] := by
  induction tail using lines_induction newline with
  | last text free =>
    intro line inside
    rw [stripped_of_free free, List.mem_singleton] at inside
    rw [inside, rdropWhile_eq_nil_iff]
    exact blanks_of_spaces free spaces
  | more before after free ih =>
    intro line inside
    rw [stripped_append_cons, stripped_of_free free, List.mem_append, List.mem_singleton] at inside
    rcases inside with rfl | inside
    · rw [rdropWhile_eq_nil_iff]
      exact blanks_of_spaces free fun x inside => spaces x (by simp [inside])
    · exact ih (fun x inside => spaces x (by simp [inside])) line inside

section Blanks

variable (visible : isBlank newline = false)

include visible

/-- Blanks at the end of the last line are dropped. -/
theorem stripped_append_blanks (text : List α) {blanks : List α}
    (all : ∀ x ∈ blanks, isBlank x = true) :
    stripped newline isBlank (text ++ blanks) = stripped newline isBlank text := by
  induction text using lines_induction newline with
  | last text free =>
    have none : newline ∉ text ++ blanks := by
      rw [List.mem_append, not_or]
      refine ⟨free, fun inside => ?_⟩
      rw [all newline inside] at visible
      cases visible
    rw [stripped_of_free none, stripped_of_free free, rdropWhile_append_of_all text all]
  | more before after free ih =>
    rw [List.append_assoc, List.cons_append, stripped_append_cons, stripped_append_cons, ih]

/-- Lines of blanks at the end of the text add empty lines. -/
theorem stripped_append_spaces (text : List α) {tail : List α}
    (spaces : ∀ x ∈ tail, isBlank x = true ∨ x = newline) :
    ∃ empty, (∀ line ∈ empty, line.isEmpty = true) ∧
      stripped newline isBlank (text ++ tail) = stripped newline isBlank text ++ empty := by
  induction tail using lines_induction newline with
  | last tail free =>
    refine ⟨[], by simp, ?_⟩
    rw [List.append_nil, stripped_append_blanks visible text (blanks_of_spaces free spaces)]
  | more before after free _ =>
    have blanks := blanks_of_spaces free fun x inside => spaces x (by simp [inside])
    refine ⟨stripped newline isBlank after, fun line inside => ?_, ?_⟩
    · rw [stripped_of_spaces (fun x inside => spaces x (by simp [inside])) line inside]
      rfl
    · rw [← List.append_assoc, stripped_append_cons, stripped_append_blanks visible text blanks]

/-- **Blanks at the end of any line do not matter.** -/
theorem trimmedLines_blanks (before after : List α) {blanks : List α}
    (all : ∀ x ∈ blanks, isBlank x = true) (ends : after = [] ∨ ∃ rest, after = newline :: rest) :
    trimmedLines newline isBlank (before ++ blanks ++ after) =
      trimmedLines newline isBlank (before ++ after) := by
  unfold trimmedLines
  congr 1
  rcases ends with rfl | ⟨rest, rfl⟩
  · rw [List.append_nil, List.append_nil, stripped_append_blanks visible before all]
  · rw [stripped_append_cons, stripped_append_cons, stripped_append_blanks visible before all]

/-- **Lines of blanks at the end of the text do not matter.** -/
theorem trimmedLines_spaces (text : List α) {tail : List α}
    (spaces : ∀ x ∈ tail, isBlank x = true ∨ x = newline) :
    trimmedLines newline isBlank (text ++ tail) = trimmedLines newline isBlank text := by
  obtain ⟨empty, all, same⟩ := stripped_append_spaces visible text spaces
  rw [trimmedLines, same, rdropWhile_append_of_all _ all, trimmedLines]

end Blanks

/-! ### The normal form -/

/-- The text with these lines. -/
def unlines (newline : α) (lines : List (List α)) : List α := [newline].intercalate lines

theorem trimmedLines_line {text line : List α} (inside : line ∈ trimmedLines newline isBlank text) :
    newline ∉ line ∧ line.rdropWhile isBlank = line := by
  obtain ⟨whole, split, rfl⟩ := List.mem_map.mp (mem_of_rdropWhile inside)
  refine ⟨fun broken => ?_, rdropWhile_idempotent isBlank whole⟩
  exact not_mem_of_splitOn text whole split (mem_of_rdropWhile broken)

/-- **Trimmed lines are the trimmed lines of the text they make up.** -/
theorem trimmedLines_unlines (text : List α) :
    trimmedLines newline isBlank (unlines newline (trimmedLines newline isBlank text)) =
      trimmedLines newline isBlank text := by
  by_cases none : trimmedLines newline isBlank text = []
  · rw [none, unlines, List.intercalate_nil, trimmedLines, stripped_nil]
    rfl
  · have split : (unlines newline (trimmedLines newline isBlank text)).splitOn newline =
        trimmedLines newline isBlank text :=
      List.splitOn_intercalate newline (fun line inside => (trimmedLines_line inside).1) none
    have same : (trimmedLines newline isBlank text).map (rdropWhile isBlank) =
        trimmedLines newline isBlank text :=
      (List.map_congr_left fun line inside => (trimmedLines_line inside).2).trans (List.map_id' _)
    rw [trimmedLines, stripped, split, same, trimmedLines, rdropWhile_idempotent]

/-- Blanks are added at the end of a line, or lines of blanks at the end of the text. -/
inductive Padded (newline : α) (isBlank : α → Bool) : List α → List α → Prop
  | line (before after : List α) {blanks : List α} (all : ∀ x ∈ blanks, isBlank x = true)
      (ends : after = [] ∨ ∃ rest, after = newline :: rest) :
      Padded newline isBlank (before ++ after) (before ++ blanks ++ after)
  | text (text : List α) {tail : List α} (spaces : ∀ x ∈ tail, isBlank x = true ∨ x = newline) :
      Padded newline isBlank text (text ++ tail)

omit [DecidableEq α] in
theorem unlines_cons_cons (line next : List α) (rest : List (List α)) :
    unlines newline (line :: next :: rest) = line ++ newline :: unlines newline (next :: rest) := by
  rw [unlines, List.intercalate_cons_cons, List.append_assoc]
  rfl

omit [DecidableEq α] in
/-- Blanks are added line by line. -/
theorem padded_lines (newline : α) (isBlank : α → Bool) (before : List α)
    (lines : List (List α)) :
    Relation.EqvGen (Padded newline isBlank)
      (before ++ unlines newline (lines.map (rdropWhile isBlank)))
      (before ++ unlines newline lines) := by
  induction lines generalizing before with
  | nil => exact .refl _
  | cons line rest ih =>
    obtain ⟨blanks, same, all⟩ := exists_rdropWhile_append isBlank line
    cases rest with
    | nil =>
      have step : Padded newline isBlank _ _ :=
        .line (before ++ line.rdropWhile isBlank) [] all (.inl rfl)
      rw [List.append_nil, List.append_nil, List.append_assoc, ← same] at step
      simpa [unlines] using Relation.EqvGen.rel _ _ step
    | cons next rest =>
      have step : Padded newline isBlank _ _ := .line (before ++ line.rdropWhile isBlank)
        (newline :: unlines newline (next :: rest)) all (.inr ⟨_, rfl⟩)
      have later := ih (before ++ line.rdropWhile isBlank ++ [newline])
      rw [List.append_assoc before _ blanks, ← same] at step
      rw [List.map_cons, List.map_cons, unlines_cons_cons, unlines_cons_cons]
      simp only [List.append_assoc, List.singleton_append, List.map_cons] at later step ⊢
      exact later.trans _ _ _ (.rel _ _ step)

omit [DecidableEq α] in
theorem unlines_concat {lines : List (List α)} (some : lines ≠ []) (line : List α) :
    unlines newline (lines ++ [line]) = unlines newline lines ++ newline :: line := by
  induction lines with
  | nil => exact absurd rfl some
  | cons first rest ih =>
    cases rest with
    | nil => simp [unlines]
    | cons next rest =>
      rw [List.cons_append, List.cons_append, unlines_cons_cons, unlines_cons_cons,
        ← List.cons_append, ih (List.cons_ne_nil _ _), List.append_assoc, List.cons_append]

omit [DecidableEq α] in
/-- Empty lines are added at the end. -/
theorem padded_text (newline : α) (isBlank : α → Bool) (lines : List (List α)) :
    Relation.EqvGen (Padded newline isBlank) (unlines newline (lines.rdropWhile List.isEmpty))
      (unlines newline lines) := by
  induction lines using List.reverseRecOn with
  | nil => exact .refl _
  | append_singleton lines line ih =>
    by_cases empty : line.isEmpty = true
    · rw [rdropWhile_concat_pos _ _ _ empty]
      rw [List.isEmpty_iff] at empty
      subst empty
      by_cases none : lines = []
      · rw [none]
        exact .refl _
      · rw [unlines_concat none]
        refine ih.trans _ _ _ (.rel _ _ (.text _ fun x inside => .inr ?_))
        exact List.mem_singleton.mp inside
    · rw [rdropWhile_concat_neg _ _ _ empty]
      exact .refl _

/-- **Two texts have the same trimmed lines exactly if they differ by blanks at the ends of lines
and lines of blanks at the end.** -/
theorem trimmedLines_eq_iff (visible : isBlank newline = false) (first second : List α) :
    trimmedLines newline isBlank first = trimmedLines newline isBlank second ↔
      Relation.EqvGen (Padded newline isBlank) first second := by
  constructor
  · intro same
    have normal (text : List α) : Relation.EqvGen (Padded newline isBlank)
        (unlines newline (trimmedLines newline isBlank text)) text := by
      have lines := padded_lines newline isBlank [] (text.splitOn newline)
      rw [List.nil_append, List.nil_append, unlines, unlines, List.intercalate_splitOn] at lines
      exact (padded_text newline isBlank _).trans _ _ _ lines
    have back := (normal first).symm
    rw [same] at back
    exact back.trans _ _ _ (normal second)
  · intro padded
    induction padded with
    | rel first second step =>
      cases step with
      | line before after all ends => exact (trimmedLines_blanks visible before after all ends).symm
      | text _ spaces => exact (trimmedLines_spaces visible _ spaces).symm
    | refl => rfl
    | symm _ _ _ ih => exact ih.symm
    | trans _ _ _ _ _ one two => exact one.trans two

/-- **The words of a text are the words of its trimmed lines.** -/
theorem words_trimmedLines {isSpace : α → Bool} (breaks : isSpace newline = true)
    (blanks : ∀ x, isBlank x = true → isSpace x = true) (text : List α) :
    (trimmedLines newline isBlank text).flatMap (words isSpace) = words isSpace text := by
  obtain ⟨tail, same, empty⟩ :=
    exists_rdropWhile_append List.isEmpty (stripped newline isBlank text)
  have nothing : tail.flatMap (words isSpace) = [] := by
    rw [List.flatMap_eq_nil_iff]
    intro line inside
    rw [List.isEmpty_iff.mp (empty line inside), words_nil]
  have line (whole : List α) : words isSpace (whole.rdropWhile isBlank) = words isSpace whole := by
    obtain ⟨rest, same, all⟩ := exists_rdropWhile_append isBlank whole
    conv_rhs => rw [same]
    rw [words_append_spaces _ fun x inside => blanks x (all x inside)]
  have lines : (stripped newline isBlank text).flatMap (words isSpace) = words isSpace text := by
    have coarse (x : α) (here : (x == newline) = true) : isSpace x = true := by
      rw [beq_iff_eq.mp here]
      exact breaks
    rw [stripped, List.flatMap_map, ← words_flatMap coarse text, List.splitOn_eq_splitOnP]
    exact congrArg (List.flatMap · _) (funext line)
  rw [same, List.flatMap_append, nothing, List.append_nil] at lines
  exact lines

end Lines

end Codexec.Library.Split
