/-
**Printing and reading back.**

`Reads print read follows` says that `read` takes off exactly what `print` wrote, in front of every
text that `follows` allows. A number written in decimal needs such a condition (no digit may come
next), a quoted string does not. Two consequences are used throughout: a printed value determines
itself (`Reads.injective`), also in front of more text (`Reads.cancel`).

`printUntil` writes values up to a closing symbol and `printMany` also puts a separator between
them; `Reads.all` and `Reads.many` read them back.

A sequence whose parts have nothing to close them, as the options of a command line, is read by the
kinds of its elements: every part has one kind, and no two the same (`segments_unique`).
-/

import Mathlib.Data.List.Basic

namespace Codexec.Library

variable {σ α : Type}

/-- `read` takes off what `print` wrote, in front of every text in `follows`. -/
def Reads (print : α → List σ) (read : List σ → Option (α × List σ)) (follows : List σ → Prop) :
    Prop :=
  ∀ value rest, follows rest → read (print value ++ rest) = some (value, rest)

namespace Reads

variable {print : α → List σ} {read : List σ → Option (α × List σ)} {follows : List σ → Prop}

/-- **Equal texts that begin with a printed value have the same value and the same rest.** -/
theorem cancel (reads : Reads print read follows) {first second : α} {rest rest' : List σ}
    (after : follows rest) (after' : follows rest')
    (same : print first ++ rest = print second ++ rest') : first = second ∧ rest = rest' := by
  have one := reads first rest after
  rw [same, reads second rest' after'] at one
  obtain ⟨rfl, rfl⟩ := Prod.mk.inj (Option.some.inj one)
  exact ⟨rfl, rfl⟩

/-- **A printed value determines itself.** -/
theorem injective (reads : Reads print read follows) (alone : follows []) :
    Function.Injective print := by
  intro first second same
  have texts : print first ++ [] = print second ++ [] := by rw [same]
  exact (reads.cancel alone alone texts).1

end Reads

/-- A symbol in front of a printed value. -/
def skip [DecidableEq σ] (symbol : σ) (read : List σ → Option (α × List σ)) :
    List σ → Option (α × List σ)
  | [] => none
  | head :: rest => if head = symbol then read rest else none

theorem Reads.skipped [DecidableEq σ] {print : α → List σ} {read : List σ → Option (α × List σ)}
    {follows : List σ → Prop} (reads : Reads print read follows) (symbol : σ) :
    Reads (fun value => symbol :: print value) (skip symbol read) follows := by
  intro value rest after
  rw [List.cons_append, skip, if_pos rfl]
  exact reads value rest after

/-! ### Lists -/

section Lists

variable (close : σ)

/-- Values one after the other, up to and with a closing symbol. -/
def printUntil (print : α → List σ) : List α → List σ
  | [] => [close]
  | value :: rest => print value ++ printUntil print rest

/-- Values with a separator between them, up to and with a closing symbol. -/
def printMany (sep : σ) (print : α → List σ) : List α → List σ
  | [] => [close]
  | value :: rest => print value ++ printUntil close (fun value => sep :: print value) rest

variable [DecidableEq σ]

/-- Reads at most `fuel` values and the closing symbol. -/
def readUntil (read : List σ → Option (α × List σ)) : Nat → List σ → Option (List α × List σ)
  | 0, _ => none
  | fuel + 1, text =>
    if text.head? = some close then some ([], text.tail)
    else
      (read text).bind fun found =>
        (readUntil read fuel found.2).map fun more => (found.1 :: more.1, more.2)

/-- Every value takes a symbol, so the length of the text is fuel enough. -/
def readAll (read : List σ → Option (α × List σ)) (text : List σ) : Option (List α × List σ) :=
  readUntil close read text.length text

def readMany (sep : σ) (read : List σ → Option (α × List σ)) (text : List σ) :
    Option (List α × List σ) :=
  if text.head? = some close then some ([], text.tail)
  else
    (read text).bind fun found =>
      (readAll close (skip sep read) found.2).map fun more => (found.1 :: more.1, more.2)

end Lists

section Lists

variable {close : σ} {print : α → List σ}

theorem length_printUntil (opens : ∀ value rest, (print value ++ rest).head? ≠ some close)
    (values : List α) : values.length < (printUntil close print values).length := by
  induction values with
  | nil => exact Nat.one_pos
  | cons value rest ih =>
    have nonempty : print value ≠ [] := by
      intro none
      apply opens value [close]
      rw [none]
      rfl
    have positive := List.length_pos_of_ne_nil nonempty
    rw [printUntil, List.length_cons, List.length_append]
    omega

/-- Nothing is written but the values and the closing symbol. -/
theorem mem_printUntil {values : List α} {symbol : σ}
    (inside : symbol ∈ printUntil close print values) :
    symbol = close ∨ ∃ value ∈ values, symbol ∈ print value := by
  induction values with
  | nil => exact Or.inl (List.mem_singleton.mp inside)
  | cons value rest ih =>
    rcases List.mem_append.mp inside with here | later
    · exact Or.inr ⟨value, List.mem_cons_self, here⟩
    · exact (ih later).imp id fun ⟨other, member, here⟩ =>
        ⟨other, List.mem_cons_of_mem _ member, here⟩

theorem mem_printMany {sep : σ} {values : List α} {symbol : σ}
    (inside : symbol ∈ printMany close sep print values) :
    symbol = close ∨ symbol = sep ∨ ∃ value ∈ values, symbol ∈ print value := by
  cases values with
  | nil => exact Or.inl (List.mem_singleton.mp inside)
  | cons value rest =>
    rcases List.mem_append.mp inside with here | later
    · exact Or.inr (Or.inr ⟨value, List.mem_cons_self, here⟩)
    · rcases mem_printUntil later with ends | ⟨other, member, here⟩
      · exact Or.inl ends
      · rcases List.mem_cons.mp here with separates | here
        · exact Or.inr (Or.inl separates)
        · exact Or.inr (Or.inr ⟨other, List.mem_cons_of_mem _ member, here⟩)

theorem printUntil_follows {follows : List σ → Prop} (closes : ∀ rest, follows (close :: rest))
    (goesOn : ∀ value rest, follows (print value ++ rest)) (values : List α) (rest : List σ) :
    follows (printUntil close print values ++ rest) := by
  cases values with
  | nil => exact closes rest
  | cons value values =>
    rw [printUntil, List.append_assoc]
    exact goesOn value _

variable [DecidableEq σ] {read : List σ → Option (α × List σ)} {follows : List σ → Prop}

theorem readUntil_printUntil (reads : Reads print read follows)
    (opens : ∀ value rest, (print value ++ rest).head? ≠ some close)
    (closes : ∀ rest, follows (close :: rest))
    (goesOn : ∀ value rest, follows (print value ++ rest)) (values : List α) (rest : List σ)
    (fuel : Nat) (enough : values.length < fuel) :
    readUntil close read fuel (printUntil close print values ++ rest) = some (values, rest) := by
  induction values generalizing fuel with
  | nil =>
    obtain ⟨fuel, rfl⟩ := Nat.exists_eq_add_one_of_ne_zero (Nat.ne_of_gt enough)
    simp [printUntil, readUntil]
  | cons value values ih =>
    obtain ⟨fuel, rfl⟩ :=
      Nat.exists_eq_add_one_of_ne_zero (Nat.ne_of_gt (Nat.zero_lt_of_lt enough))
    have later := ih fuel (by rw [List.length_cons] at enough; omega)
    rw [printUntil, List.append_assoc, readUntil, if_neg (opens value _),
      reads value _ (printUntil_follows closes goesOn values rest), Option.bind_some]
    show Option.map _ (readUntil close read fuel (printUntil close print values ++ rest)) = _
    rw [later]
    rfl

/-- **A closed sequence reads back**, when its values do and none begins with the closing symbol. -/
theorem Reads.all (reads : Reads print read follows)
    (opens : ∀ value rest, (print value ++ rest).head? ≠ some close)
    (closes : ∀ rest, follows (close :: rest))
    (goesOn : ∀ value rest, follows (print value ++ rest)) :
    Reads (printUntil close print) (readAll close read) fun _ => True := by
  intro values rest _
  refine readUntil_printUntil reads opens closes goesOn values rest _ ?_
  have longer := length_printUntil opens values
  rw [List.length_append]
  omega

/-- **A separated list reads back**, under the same conditions. -/
theorem Reads.many {sep : σ} (different : sep ≠ close) (reads : Reads print read follows)
    (opens : ∀ value rest, (print value ++ rest).head? ≠ some close)
    (closes : ∀ rest, follows (close :: rest)) (goesOn : ∀ rest, follows (sep :: rest)) :
    Reads (printMany close sep print) (readMany close sep read) fun _ => True := by
  intro values rest _
  cases values with
  | nil => simp [printMany, readMany]
  | cons value values =>
    have more : Reads (printUntil close fun value => sep :: print value)
        (readAll close (skip sep read)) fun _ => True :=
      (reads.skipped sep).all (fun value rest same => different (Option.some.inj same)) closes
        fun value rest => goesOn _
    rw [printMany, List.append_assoc, readMany, if_neg (opens _ _),
      reads value _ (printUntil_follows closes (fun value rest => goesOn _) values rest),
      Option.bind_some]
    show Option.map _ (readAll close _ (printUntil close _ values ++ rest)) = _
    rw [more values rest trivial]
    rfl

end Lists

/-! ### Segments -/

section Segments

variable {τ : Type} {kind : α → τ}

/-- Every segment has elements of its own kind only. -/
def Kinds (kind : α → τ) (segments : List (List α)) (kinds : List τ) : Prop :=
  List.Forall₂ (fun segment own => ∀ x ∈ segment, kind x = own) segments kinds

/-- What comes first has one of the kinds. -/
theorem kinds_head {segments : List (List α)} {kinds : List τ}
    (proper : Kinds kind segments kinds) (last : α) (rest : List α) :
    ∃ first later, segments.flatten ++ last :: rest = first :: later ∧
      (kind first = kind last ∨ kind first ∈ kinds) := by
  induction proper with
  | nil => exact ⟨last, rest, rfl, Or.inl rfl⟩
  | @cons segment own segments kinds here _ ih =>
    cases segment with
    | nil =>
      obtain ⟨first, later, same, known⟩ := ih
      exact ⟨first, later, same, known.imp id (List.mem_cons_of_mem _)⟩
    | cons x others =>
      refine ⟨x, others ++ (segments.flatten ++ last :: rest), by simp, Or.inr ?_⟩
      rw [here x List.mem_cons_self]
      exact List.mem_cons_self

/-- A segment in front of other kinds is what `takeWhile` takes. -/
theorem takeWhile_segment [DecidableEq τ] {own : τ} {segment later : List α} {first : α}
    (here : ∀ x ∈ segment, kind x = own) (other : kind first ≠ own) :
    (segment ++ first :: later).takeWhile (fun x => decide (kind x = own)) = segment := by
  rw [List.takeWhile_append_of_pos fun x inside => decide_eq_true (here x inside),
    List.takeWhile_cons_of_neg (by simp [other]), List.append_nil]

/-- **Segments of different kinds, up to an element of another kind, are determined by the
sequence.** -/
theorem segments_unique {segments segments' : List (List α)} {kinds : List τ}
    (proper : Kinds kind segments kinds) (proper' : Kinds kind segments' kinds)
    (apart : kinds.Nodup) {last last' : α} {rest rest' : List α} (stops : kind last ∉ kinds)
    (stops' : kind last' ∉ kinds)
    (same : segments.flatten ++ last :: rest = segments'.flatten ++ last' :: rest') :
    segments = segments' ∧ last :: rest = last' :: rest' := by
  classical
  induction proper generalizing segments' with
  | nil =>
    cases proper'
    exact ⟨rfl, same⟩
  | @cons segment own segments kinds here tail ih =>
    cases proper' with
    | @cons segment' _ segments' _ here' tail' =>
    rw [List.nodup_cons] at apart
    rw [List.mem_cons, not_or] at stops stops'
    obtain ⟨first, later, begins, known⟩ := kinds_head tail last rest
    obtain ⟨first', later', begins', known'⟩ := kinds_head tail' last' rest'
    have foreign : kind first ≠ own := by
      rcases known with known | known
      · exact known ▸ stops.1
      · exact fun same => apart.1 (same ▸ known)
    have foreign' : kind first' ≠ own := by
      rcases known' with known' | known'
      · exact known' ▸ stops'.1
      · exact fun same => apart.1 (same ▸ known')
    rw [List.flatten_cons, List.flatten_cons, List.append_assoc, List.append_assoc, begins,
      begins'] at same
    have taken := congrArg (List.takeWhile fun x => decide (kind x = own)) same
    rw [takeWhile_segment here foreign, takeWhile_segment here' foreign'] at taken
    subst taken
    have left := List.append_cancel_left same
    rw [← begins, ← begins'] at left
    obtain ⟨rfl, ends⟩ := ih tail' apart.2 stops.2 stops'.2 left
    exact ⟨rfl, ends⟩

end Segments

end Codexec.Library
