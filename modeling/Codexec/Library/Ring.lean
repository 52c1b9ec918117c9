/-
**Bounded buffers that drop the oldest.**

A receiver that reads too slowly loses the oldest items, never the newest: `push` keeps the last
`capacity` items. The rules say when an item survives a push. `Traces` relates what was sent to what
a receiver took and what still waits: nothing is reordered, and the newest items are all there.
-/

import Mathlib.Data.List.Basic

namespace Codexec.Library.Ring

variable {α : Type} {capacity : Nat} {waiting : List α} {item other : α}

/-- One more item; what does not fit is dropped from the front. -/
def push (capacity : Nat) (waiting : List α) (item : α) : List α :=
  (waiting ++ [item]).drop (waiting.length + 1 - capacity)

theorem length_push (fits : waiting.length ≤ capacity) :
    (push capacity waiting item).length ≤ capacity := by
  rw [push, List.length_drop, List.length_append, List.length_singleton]
  omega

/-- With room nothing is dropped. -/
theorem push_of_room (room : waiting.length < capacity) :
    push capacity waiting item = waiting ++ [item] := by
  have none : waiting.length + 1 - capacity = 0 := by omega
  rw [push, none, List.drop_zero]

/-- **The newest item is there.** -/
theorem mem_push (positive : 0 < capacity) : item ∈ push capacity waiting item := by
  have kept : waiting.length + 1 - capacity ≤ waiting.length := by omega
  rw [push, List.drop_append_of_le_length kept]
  exact List.mem_append_right _ (List.mem_singleton_self item)

/-- **A full buffer loses its oldest item.** -/
theorem push_of_full (full : waiting.length = capacity) (positive : 0 < capacity) :
    push capacity waiting item = waiting.tail ++ [item] := by
  have one : waiting.length + 1 - capacity = 1 := by omega
  rw [push, one, List.drop_one, List.tail_append_of_ne_nil]
  intro empty
  rw [empty] at full
  exact absurd full (Nat.ne_of_lt positive)

/-! ### A receiver -/

/-- What a receiver got, and what waits for it, out of what was sent. -/
structure Traces (capacity : Nat) (sent got waiting : List α) : Prop where
  order : (got ++ waiting).Sublist sent
  newest : ∀ late, late <:+ sent → late.length ≤ capacity → late <:+ got ++ waiting
  fits : waiting.length ≤ capacity

namespace Traces

variable {sent got rest : List α}

theorem start : Traces capacity ([] : List α) [] [] :=
  ⟨List.Sublist.refl _, fun _ late _ => late, Nat.zero_le _⟩

/-- Taking the oldest item loses nothing. -/
theorem take (traces : Traces capacity sent got (item :: rest)) :
    Traces capacity sent (got ++ [item]) rest := by
  have same : got ++ [item] ++ rest = got ++ item :: rest := by simp
  refine ⟨by rw [same]; exact traces.order, fun late inside short => ?_, ?_⟩
  · rw [same]
    exact traces.newest late inside short
  · exact Nat.le_of_succ_le traces.fits

/-- **A push loses at most the oldest item**, and none of the newest. -/
theorem push (traces : Traces capacity sent got waiting) (positive : 0 < capacity) :
    Traces capacity (sent ++ [item]) got (Ring.push capacity waiting item) := by
  rcases Nat.lt_or_eq_of_le traces.fits with room | full
  · rw [push_of_room room]
    refine ⟨?_, fun late inside short => ?_, ?_⟩
    · rw [← List.append_assoc]
      exact traces.order.append_right _
    · rw [← List.append_assoc]
      rcases List.suffix_concat_iff.mp inside with rfl | ⟨early, rfl, before⟩
      · exact List.nil_suffix
      · rw [List.length_append] at short
        obtain ⟨more, same⟩ := traces.newest early before (Nat.le_of_succ_le short)
        exact ⟨more, by rw [← List.append_assoc, same]⟩
    · rw [List.length_append]
      exact room
  · rw [push_of_full full positive]
    cases waiting with
    | nil => exact absurd full (Nat.ne_of_lt positive)
    | cons oldest rest =>
      refine ⟨?_, fun late inside short => ?_, ?_⟩
      · rw [List.tail_cons, ← List.append_assoc]
        refine List.Sublist.append_right (List.Sublist.trans ?_ traces.order) _
        exact (List.sublist_cons_self oldest rest).append_left got
      · rcases List.suffix_concat_iff.mp inside with rfl | ⟨early, rfl, before⟩
        · exact List.nil_suffix
        · -- It is shorter than what waited, so it is a part of what waits now.
          rw [List.length_append] at short
          have few : early.length < (oldest :: rest).length := full ▸ short
          have kept := List.suffix_of_suffix_length_le
            (traces.newest early before (Nat.le_of_succ_le short)) (List.suffix_append got _)
            (Nat.le_of_lt few)
          rcases List.suffix_cons_iff.mp kept with rfl | waits
          · exact absurd few (Nat.lt_irrefl _)
          · obtain ⟨more, same⟩ := waits
            exact ⟨got ++ more, by rw [List.tail_cons, ← same]; simp⟩
      · rw [List.length_append]
        exact Nat.le_of_eq full

end Traces

end Codexec.Library.Ring
