/-
**What the comparison of tokens decides.**

The tokens of an output are the tokens of its normalised lines (`tokens_eq`): every separator of
lines and every blank separates tokens, too. So outputs with the same lines have the same tokens,
and outputs with the same tokens match whatever numbers are let through: the comparers are ordered
by leniency (`comparers_by_leniency`).

The comparison reads both lists of tokens in lock step and stops where their longest match ends
(`compareTokenLists_longest`); what it answers, and at which token, follows from there
(`tokens_decide_matching`).
-/

import Codexec.Judge.Lines
import Codexec.Judge.Execution
import Codexec.Library.Matching

namespace Codexec

open Codexec.Library Split Matching

/-- **The tokens of an output are those of its normalised lines.** -/
theorem tokens_eq (data : Bytes) : tokens data = (normalizedLines data).flatMap tokens := by
  rw [normalizedLines_eq]
  refine (words_trimmedLines rfl (fun byte blank => ?_) data).symm
  simp only [isBlank, isAsciiWhitespace, Bool.or_eq_true] at blank ⊢
  tauto

section Tokens

variable [Host]

/-- Equal tokens match, whatever numbers are let through. -/
theorem compareTokenLists_self (eps : Option F64) (index : Nat) (list : List Bytes) :
    compareTokenLists eps index list list = .ok () := by
  induction list generalizing index with
  | nil => rfl
  | cons token rest ih => rw [compareTokenLists, if_pos rfl, ih]

/-- Without a tolerance only equal tokens match. -/
theorem eq_of_compareTokenLists {index : Nat} {expected actual : List Bytes}
    (matched : compareTokenLists none index expected actual = .ok ()) : expected = actual := by
  induction expected generalizing index actual with
  | nil =>
    cases actual with
    | nil => rfl
    | cons token rest => cases matched
  | cons token rest ih =>
    cases actual with
    | nil => cases matched
    | cons token' rest' =>
      unfold compareTokenLists at matched
      by_cases same : token = token'
      · rw [if_pos same] at matched
        rw [same, ih matched]
      · rw [if_neg same] at matched
        cases matched

/-- The comparers from strict to lenient. -/
inductive Comparer.Lenient : Comparer → Comparer → Prop
  | refl (comparer : Comparer) : Lenient comparer comparer
  | tokens : Lenient .lines .tokens
  | float (eps : F64) : Lenient .tokens (.float eps)
  | trans {one two three : Comparer} (first : Lenient one two) (second : Lenient two three) :
      Lenient one three

theorem tokens_of_lines {e a : Bytes} (matched : compare .lines e a = .ok ()) :
    compare .tokens e a = .ok () := by
  have same : tokens e = tokens a := by
    rw [tokens_eq, tokens_eq a, compareLines_ok_iff.mp matched]
  show compareTokenLists none 0 (tokens e) (tokens a) = .ok ()
  rw [same]
  exact compareTokenLists_self _ _ _

theorem float_of_tokens (eps : F64) {e a : Bytes} (matched : compare .tokens e a = .ok ()) :
    compare (.float eps) e a = .ok () := by
  have same : tokens e = tokens a := eq_of_compareTokenLists matched
  show compareTokenLists (some eps) 0 (tokens e) (tokens a) = .ok ()
  rw [same]
  exact compareTokenLists_self _ _ _

theorem compare_lenient {comparer comparer' : Comparer} (lenient : comparer.Lenient comparer')
    {e a : Bytes} (matched : compare comparer e a = .ok ()) : compare comparer' e a = .ok () := by
  induction lenient with
  | refl => exact matched
  | tokens => exact tokens_of_lines matched
  | float eps => exact float_of_tokens eps matched
  | trans _ _ one two => exact two (one matched)

end Tokens

/-- **Comparers are ordered by leniency**: what a comparer accepts, every more lenient one accepts,
and so does the judge. -/
theorem comparers_by_leniency [Host] (e a : Bytes) (eps : F64) :
    (compare .lines e a = .ok () → compare .tokens e a = .ok ()) ∧
      (compare .tokens e a = .ok () → compare (.float eps) e a = .ok ()) ∧
      ∀ comparer comparer' : Comparer, comparer.Lenient comparer' →
        ∀ (out : ExecOutcome) (test : TestCase), (classify out test comparer).1 = .accepted →
          (classify out test comparer').1 = .accepted := by
  refine ⟨tokens_of_lines, float_of_tokens eps, ?_⟩
  intro comparer comparer' lenient out test accepted
  rw [Judge.classify_accepted] at accepted ⊢
  exact ⟨accepted.1, fun expected given => compare_lenient lenient (accepted.2 expected given)⟩

/-! ### Tokens in lock step -/

def endedMessage (k : Nat) : String := s!"output ended early at token {k}"

def extraMessage (k : Nat) : String := s!"unexpected extra token {k}"

def tokenMessage (k : Nat) : String := s!"token {k} differs"

/-- The messages name one token. -/
theorem endedMessage_injective : Function.Injective endedMessage := by
  intro k k' same
  have texts : ("output ended early at token " ++ toString k).toList =
      ("output ended early at token " ++ toString k').toList := congrArg String.toList same
  simp only [String.toList_append] at texts
  exact toString_injective (String.toList_inj.mp (List.append_cancel_left texts))

theorem extraMessage_injective : Function.Injective extraMessage := by
  intro k k' same
  have texts : ("unexpected extra token " ++ toString k).toList =
      ("unexpected extra token " ++ toString k').toList := congrArg String.toList same
  simp only [String.toList_append] at texts
  exact toString_injective (String.toList_inj.mp (List.append_cancel_left texts))

theorem tokenMessage_injective : Function.Injective tokenMessage := by
  intro k k' same
  have texts : ("token " ++ toString k ++ " differs").toList =
      ("token " ++ toString k' ++ " differs").toList := congrArg String.toList same
  simp only [String.toList_append, List.append_assoc] at texts
  have numbers := List.append_cancel_right (List.append_cancel_left texts)
  exact toString_injective (String.toList_inj.mp numbers)

/-- The three messages begin with different letters. -/
theorem endedMessage_ne_extra (k k' : Nat) : endedMessage k ≠ extraMessage k' := by
  intro same
  have texts : ("output ended early at token " ++ toString k).toList =
      ("unexpected extra token " ++ toString k').toList := congrArg String.toList same
  simp only [String.toList_append] at texts
  cases (List.cons.inj texts).1

theorem endedMessage_ne_token (k k' : Nat) : endedMessage k ≠ tokenMessage k' := by
  intro same
  have texts : ("output ended early at token " ++ toString k).toList =
      ("token " ++ toString k' ++ " differs").toList := congrArg String.toList same
  simp only [String.toList_append, List.append_assoc] at texts
  cases (List.cons.inj texts).1

theorem extraMessage_ne_token (k k' : Nat) : extraMessage k ≠ tokenMessage k' := by
  intro same
  have texts : ("unexpected extra token " ++ toString k).toList =
      ("token " ++ toString k' ++ " differs").toList := congrArg String.toList same
  simp only [String.toList_append, List.append_assoc] at texts
  cases (List.cons.inj texts).1

/-- What is answered where lists of `m` and `n` tokens match up to `k` of them. -/
def answerAt (index k m n : Nat) : Except String Unit :=
  if k = m then if k = n then .ok () else .error (extraMessage (index + k + 1))
  else if k = n then .error (endedMessage (index + k + 1))
  else .error (tokenMessage (index + k + 1))

theorem answerAt_succ (index k m n : Nat) :
    answerAt index (k + 1) (m + 1) (n + 1) = answerAt (index + 1) k m n := by
  have position : index + (k + 1) + 1 = index + 1 + k + 1 := by omega
  simp only [answerAt, Nat.add_right_cancel_iff, position]

theorem answerAt_ok {index k m n : Nat} : answerAt index k m n = .ok () ↔ k = m ∧ k = n := by
  unfold answerAt
  split_ifs with left right right
  · exact iff_of_true rfl ⟨left, right⟩
  · simp [right]
  · simp [left]
  · simp [left]

theorem answerAt_ended {index k m n i : Nat} :
    answerAt index k m n = .error (endedMessage i) ↔ k ≠ m ∧ k = n ∧ index + k + 1 = i := by
  unfold answerAt
  split_ifs with left right right
  · simp [left]
  · simp [left, (endedMessage_ne_extra _ _).symm]
  · simp [left, ← right, endedMessage_injective.eq_iff]
  · simp [right, (endedMessage_ne_token _ _).symm]

theorem answerAt_extra {index k m n i : Nat} :
    answerAt index k m n = .error (extraMessage i) ↔ k = m ∧ k ≠ n ∧ index + k + 1 = i := by
  unfold answerAt
  split_ifs with left right right
  · simp [right]
  · simp [← left, right, extraMessage_injective.eq_iff]
  · simp [left, endedMessage_ne_extra]
  · simp [left, (extraMessage_ne_token _ _).symm]

theorem answerAt_token {index k m n i : Nat} :
    answerAt index k m n = .error (tokenMessage i) ↔ k ≠ m ∧ k ≠ n ∧ index + k + 1 = i := by
  unfold answerAt
  split_ifs with left right right
  · simp [left]
  · simp [left, extraMessage_ne_token]
  · simp [right, endedMessage_ne_token]
  · simp [left, right, tokenMessage_injective.eq_iff]

theorem answerAt_messages {index k m n : Nat} {why : String}
    (failed : answerAt index k m n = .error why) :
    ∃ i, why = endedMessage i ∨ why = extraMessage i ∨ why = tokenMessage i := by
  refine ⟨index + k + 1, ?_⟩
  unfold answerAt at failed
  split_ifs at failed with left right right
  · exact .inr (.inl (Except.error.inj failed).symm)
  · exact .inl (Except.error.inj failed).symm
  · exact .inr (.inr (Except.error.inj failed).symm)

section Matching

variable [Host] {eps : Option F64}

/-- Two tokens are equal, or numbers within the tolerance if there is one. -/
def TokensMatch (eps : Option F64) (expected actual : Bytes) : Prop :=
  expected = actual ∨ eps.any (floatsMatch expected actual) = true

theorem tokensMatch_none : TokensMatch none = Eq := by
  funext expected actual
  simp [TokensMatch]

theorem tokensMatch_some {eps : F64} {expected actual : Bytes} :
    TokensMatch (some eps) expected actual ↔
      expected = actual ∨ floatsMatch expected actual eps = true := by
  simp [TokensMatch]

/-- **The loop stops where the longest match ends.** -/
theorem compareTokenLists_longest (index : Nat) (expected actual : List Bytes) :
    ∃ k, LongestMatch (TokensMatch eps) expected actual k ∧
      compareTokenLists eps index expected actual =
        answerAt index k expected.length actual.length := by
  induction expected generalizing index actual with
  | nil =>
    refine ⟨0, longestMatch_nil_left actual, ?_⟩
    cases actual with
    | nil => rfl
    | cons token rest => rfl
  | cons token rest ih =>
    cases actual with
    | nil => exact ⟨0, longestMatch_nil_right _, rfl⟩
    | cons token' rest' =>
      unfold compareTokenLists
      by_cases matched : TokensMatch eps token token'
      · obtain ⟨k, longest, answer⟩ := ih (index + 1) rest'
        refine ⟨k + 1, longest.cons matched, ?_⟩
        rw [List.length_cons, List.length_cons, answerAt_succ, ← answer]
        by_cases same : token = token'
        · rw [if_pos same]
        · rw [if_neg same, if_pos (matched.resolve_left same)]
      · refine ⟨0, longestMatch_of_mismatch matched rest rest', ?_⟩
        unfold TokensMatch at matched
        rw [not_or] at matched
        rw [if_neg matched.1, if_neg matched.2]
        rfl

/-- The answer is the one at the end of the longest match. -/
theorem compareTokens_of_longest {e a : Bytes} {k : Nat}
    (longest : LongestMatch (TokensMatch eps) (tokens e) (tokens a) k) :
    compareTokens e a eps = answerAt 0 k (tokens e).length (tokens a).length := by
  obtain ⟨k', longest', answer⟩ := compareTokenLists_longest 0 (tokens e) (tokens a)
  rw [compareTokens, answer, longest.unique longest']

theorem exists_longest (eps : Option F64) (e a : Bytes) :
    ∃ k, LongestMatch (TokensMatch eps) (tokens e) (tokens a) k := by
  obtain ⟨k, longest, -⟩ := compareTokenLists_longest 0 (tokens e) (tokens a)
  exact ⟨k, longest⟩

/-- An answer is the one at the end of the longest match. -/
theorem compareTokens_eq_iff {e a : Bytes} {answer : Except String Unit} :
    compareTokens e a eps = answer ↔
      ∃ k, LongestMatch (TokensMatch eps) (tokens e) (tokens a) k ∧
        answerAt 0 k (tokens e).length (tokens a).length = answer := by
  constructor
  · rintro rfl
    obtain ⟨k, longest⟩ := exists_longest eps e a
    exact ⟨k, longest, (compareTokens_of_longest longest).symm⟩
  · rintro ⟨k, longest, rfl⟩
    exact compareTokens_of_longest longest

theorem compareTokens_ok_iff {e a : Bytes} :
    compareTokens e a eps = .ok () ↔ List.Forall₂ (TokensMatch eps) (tokens e) (tokens a) := by
  rw [compareTokens_eq_iff]
  constructor
  · rintro ⟨k, longest, ok⟩
    obtain ⟨left, right⟩ := answerAt_ok.mp ok
    have items := longest.1.items
    rw [List.take_of_length_le left.ge, List.take_of_length_le right.ge] at items
    exact items
  · intro all
    exact ⟨_, longestMatch_of_forall₂ all, answerAt_ok.mpr ⟨rfl, all.length_eq⟩⟩

/-- The output ends early where all of it is matched and more is expected. -/
theorem compareTokens_ended_iff {e a : Bytes} {i : Nat} :
    compareTokens e a eps = .error (endedMessage i) ↔
      ∃ k, LongestMatch (TokensMatch eps) (tokens e) (tokens a) k ∧ i = k + 1 ∧
        k < (tokens e).length ∧ k = (tokens a).length := by
  rw [compareTokens_eq_iff]
  refine exists_congr fun k => and_congr_right fun longest => ?_
  rw [answerAt_ended, longest.ne_left, Nat.zero_add]
  tauto

/-- There is an extra token where all that is expected is matched and the output goes on. -/
theorem compareTokens_extra_iff {e a : Bytes} {i : Nat} :
    compareTokens e a eps = .error (extraMessage i) ↔
      ∃ k, LongestMatch (TokensMatch eps) (tokens e) (tokens a) k ∧ i = k + 1 ∧
        k = (tokens e).length ∧ k < (tokens a).length := by
  rw [compareTokens_eq_iff]
  refine exists_congr fun k => and_congr_right fun longest => ?_
  rw [answerAt_extra, longest.ne_right, Nat.zero_add]
  tauto

/-- Tokens differ where both lists go on after the longest match. -/
theorem compareTokens_differs_iff {e a : Bytes} {i : Nat} :
    compareTokens e a eps = .error (tokenMessage i) ↔
      ∃ k, LongestMatch (TokensMatch eps) (tokens e) (tokens a) k ∧ i = k + 1 ∧
        k < (tokens e).length ∧ k < (tokens a).length := by
  rw [compareTokens_eq_iff]
  refine exists_congr fun k => and_congr_right fun longest => ?_
  rw [answerAt_token, longest.ne_left, longest.ne_right, Nat.zero_add]
  tauto

theorem compareTokens_messages {e a : Bytes} {why : String}
    (failed : compareTokens e a eps = .error why) :
    ∃ i, why = endedMessage i ∨ why = extraMessage i ∨ why = tokenMessage i := by
  obtain ⟨k, -, answer⟩ := compareTokens_eq_iff.mp failed
  exact answerAt_messages answer

/-- The answer depends on the tokens only. -/
theorem compareTokens_congr {e e' a a' : Bytes} (expected : tokens e' = tokens e)
    (actual : tokens a' = tokens a) : compareTokens e' a' eps = compareTokens e a eps := by
  rw [compareTokens, compareTokens, expected, actual]

end Matching

/-- The white space of an output is laid out in another way. -/
abbrev Layout : Bytes → Bytes → Prop := Relation.EqvGen (Relaid isAsciiWhitespace)

theorem tokens_layout {data data' : Bytes} (layout : Layout data data') :
    tokens data' = tokens data := by
  induction layout with
  | rel _ _ relaid => exact words_relaid relaid
  | refl => rfl
  | symm _ _ _ ih => exact ih.symm
  | trans _ _ _ _ _ one two => exact two.trans one

/-- What the comparison of tokens promises. -/
structure DecidesTokens [Host] : Prop where
  /-- Tokens are the maximal runs of bytes that are no ASCII white space. -/
  runs : ∀ data list, tokens data = list ↔ Runs isAsciiWhitespace data list
  exact : ∀ e a, compareTokens e a none = .ok () ↔ tokens e = tokens a
  within : ∀ e a eps, compareTokens e a (some eps) = .ok () ↔
    (tokens e).length = (tokens a).length ∧
      ∀ i (here : i < (tokens e).length) (there : i < (tokens a).length),
        (tokens e)[i] = (tokens a)[i] ∨ floatsMatch (tokens e)[i] (tokens a)[i] eps = true
  byTokens : ∀ e e' a a' eps, tokens e' = tokens e → tokens a' = tokens a →
    compareTokens e' a' eps = compareTokens e a eps
  layout : ∀ e e' a a' eps, Layout e e' → Layout a a' →
    compareTokens e' a' eps = compareTokens e a eps
  ended : ∀ e a eps i, compareTokens e a eps = .error (endedMessage i) ↔
    ∃ k, LongestMatch (TokensMatch eps) (tokens e) (tokens a) k ∧ i = k + 1 ∧
      k < (tokens e).length ∧ k = (tokens a).length
  extra : ∀ e a eps i, compareTokens e a eps = .error (extraMessage i) ↔
    ∃ k, LongestMatch (TokensMatch eps) (tokens e) (tokens a) k ∧ i = k + 1 ∧
      k = (tokens e).length ∧ k < (tokens a).length
  differs : ∀ e a eps i, compareTokens e a eps = .error (tokenMessage i) ↔
    ∃ k, LongestMatch (TokensMatch eps) (tokens e) (tokens a) k ∧ i = k + 1 ∧
      k < (tokens e).length ∧ k < (tokens a).length
  messages : ∀ e a eps why, compareTokens e a eps = .error why →
    ∃ i, why = endedMessage i ∨ why = extraMessage i ∨ why = tokenMessage i

/-- **The comparison of tokens decides whether they match one by one.** -/
theorem tokens_decide_matching [Host] : DecidesTokens where
  runs _ _ := words_eq_iff
  exact e a := by rw [compareTokens_ok_iff, tokensMatch_none, List.forall₂_eq_eq_eq]
  within e a eps := by
    rw [compareTokens_ok_iff, List.forall₂_iff_get]
    simp only [tokensMatch_some, List.get_eq_getElem]
  byTokens _ _ _ _ _ expected actual := compareTokens_congr expected actual
  layout _ _ _ _ _ expected actual :=
    compareTokens_congr (tokens_layout expected) (tokens_layout actual)
  ended _ _ _ _ := compareTokens_ended_iff
  extra _ _ _ _ := compareTokens_extra_iff
  differs _ _ _ _ := compareTokens_differs_iff
  messages _ _ _ _ failed := compareTokens_messages failed

end Codexec
