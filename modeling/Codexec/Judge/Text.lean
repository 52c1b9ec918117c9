/-
**Bytes and text.**

The engine moves bytes and shows text. `utf8` is `str::as_bytes`, `fromUtf8Lossy` is
`String::from_utf8_lossy`: the longest well-formed sequences become characters and every maximal
ill-formed piece becomes one replacement character. `byteCount` is the length of a text in UTF-8.
-/

import Mathlib.Data.List.Basic

namespace Codexec

/-- A byte string. -/
abbrev Bytes : Type := List UInt8

/-- `str::as_bytes`. -/
def utf8 (text : String) : Bytes := text.toList.flatMap String.utf8EncodeChar

theorem utf8_append (first second : String) :
    utf8 (first ++ second) = utf8 first ++ utf8 second := by
  rw [utf8, String.toList_append, List.flatMap_append]
  rfl

/-! ### Lengths -/

/-- The bytes of symbols. -/
def byteCount (symbols : List Char) : Nat := (symbols.flatMap String.utf8EncodeChar).length

@[simp] theorem byteCount_nil : byteCount [] = 0 := rfl

@[simp] theorem byteCount_cons (c : Char) (rest : List Char) :
    byteCount (c :: rest) = c.utf8Size + byteCount rest := by
  rw [byteCount, List.flatMap_cons, List.length_append, String.length_utf8EncodeChar, byteCount]

@[simp] theorem byteCount_append (first second : List Char) :
    byteCount (first ++ second) = byteCount first + byteCount second := by
  rw [byteCount, List.flatMap_append, List.length_append, byteCount, byteCount]

theorem length_utf8 (text : String) : (utf8 text).length = byteCount text.toList := rfl

theorem byteCount_replicate (n : Nat) (c : Char) :
    byteCount (List.replicate n c) = n * c.utf8Size := by
  induction n with
  | zero => rw [List.replicate_zero, byteCount_nil, Nat.zero_mul]
  | succ n ih => rw [List.replicate_succ, byteCount_cons, ih, Nat.succ_mul, Nat.add_comm]

/-! ### Decimal numbers -/

theorem isDigit_of_mem_toString {n : Nat} {c : Char} (inside : c ∈ (toString n).toList) :
    c.isDigit = true := by
  rw [Nat.toString_eq_repr, Nat.toList_repr] at inside
  exact Nat.isDigit_of_mem_toDigits (by decide) (by decide) inside

theorem toString_injective {n m : Nat} (same : toString n = toString m) : n = m := by
  have digits := congrArg String.toList same
  rw [Nat.toString_eq_repr, Nat.toString_eq_repr, Nat.toList_repr, Nat.toList_repr] at digits
  have numbers := congrArg (fun text => Nat.ofDigitChars 10 text 0) digits
  simpa only [Nat.ofDigitChars_ten_toDigits] using numbers

/-! ### UTF-8 is a prefix code -/

/-- Equal texts that begin with a character have the same character and the same rest. -/
theorem utf8EncodeChar_cancel {c d : Char} {rest rest' : Bytes}
    (same : String.utf8EncodeChar c ++ rest = String.utf8EncodeChar d ++ rest') :
    c = d ∧ rest = rest' := by
  have arrays := congrArg List.toByteArray same
  rw [List.toByteArray_append, List.toByteArray_append] at arrays
  have decoded := congrArg (fun bytes => bytes.utf8DecodeChar? 0) arrays
  simp only [ByteArray.utf8DecodeChar?_utf8EncodeChar_append] at decoded
  obtain rfl := Option.some.inj decoded
  exact ⟨rfl, List.append_cancel_left same⟩

/-- Of two texts that begin the same bytes, one begins the other. -/
theorem prefix_of_utf8 {first second : List Char} {rest rest' : Bytes}
    (same : first.flatMap String.utf8EncodeChar ++ rest =
      second.flatMap String.utf8EncodeChar ++ rest') : first <+: second ∨ second <+: first := by
  induction first generalizing second with
  | nil => exact Or.inl List.nil_prefix
  | cons c first ih =>
    cases second with
    | nil => exact Or.inr List.nil_prefix
    | cons d second =>
      rw [List.flatMap_cons, List.flatMap_cons, List.append_assoc, List.append_assoc] at same
      obtain ⟨rfl, later⟩ := utf8EncodeChar_cancel same
      rcases ih later with shorter | shorter
      · exact Or.inl (List.cons_prefix_cons.mpr ⟨rfl, shorter⟩)
      · exact Or.inr (List.cons_prefix_cons.mpr ⟨rfl, shorter⟩)

/-- **A text up to a character that it does not contain determines itself.** -/
theorem utf8_cancel_until {stop : Char} {first second : List Char} {rest rest' : Bytes}
    (without : stop ∉ first) (without' : stop ∉ second)
    (same : first.flatMap String.utf8EncodeChar ++ (String.utf8EncodeChar stop ++ rest) =
      second.flatMap String.utf8EncodeChar ++ (String.utf8EncodeChar stop ++ rest')) :
    first = second ∧ rest = rest' := by
  induction first generalizing second with
  | nil =>
    cases second with
    | nil => exact ⟨rfl, (utf8EncodeChar_cancel same).2⟩
    | cons d second =>
      rw [List.flatMap_cons, List.append_assoc] at same
      obtain ⟨rfl, _⟩ := utf8EncodeChar_cancel same
      exact absurd List.mem_cons_self without'
  | cons c first ih =>
    cases second with
    | nil =>
      rw [List.flatMap_cons, List.append_assoc] at same
      obtain ⟨rfl, _⟩ := utf8EncodeChar_cancel same
      exact absurd List.mem_cons_self without
    | cons d second =>
      rw [List.flatMap_cons, List.flatMap_cons, List.append_assoc, List.append_assoc] at same
      obtain ⟨rfl, later⟩ := utf8EncodeChar_cancel same
      obtain ⟨rfl, rests⟩ := ih (fun inside => without (List.mem_cons_of_mem _ inside))
        (fun inside => without' (List.mem_cons_of_mem _ inside)) later
      exact ⟨rfl, rests⟩

/-- No byte of a text is zero, unless it has the character zero; and none is above `0xF7`. -/
theorem utf8EncodeChar_byte {c : Char} (nonzero : c ≠ '\x00') {byte : UInt8}
    (inside : byte ∈ String.utf8EncodeChar c) : byte ≠ 0 ∧ byte.toNat < 0xF8 := by
  have positive : c.val.toNat ≠ 0 := by
    intro zero
    exact nonzero (Char.ext (UInt32.toNat_inj.mp zero))
  have bytes : byte.toNat ≠ 0 ∧ byte.toNat < 0xF8 := by
    unfold String.utf8EncodeChar at inside
    simp only [] at inside
    split at inside
    · simp only [List.mem_singleton] at inside
      rw [inside, UInt8.toNat_ofNat']
      omega
    · split at inside
      · simp only [List.mem_cons, List.not_mem_nil, or_false] at inside
        rcases inside with rfl | rfl <;> rw [UInt8.toNat_ofNat'] <;> omega
      · split at inside
        · simp only [List.mem_cons, List.not_mem_nil, or_false] at inside
          rcases inside with rfl | rfl | rfl <;> rw [UInt8.toNat_ofNat'] <;> omega
        · simp only [List.mem_cons, List.not_mem_nil, or_false] at inside
          rcases inside with rfl | rfl | rfl | rfl <;> rw [UInt8.toNat_ofNat'] <;> omega
  exact ⟨fun zero => bytes.1 (by rw [zero]; rfl), bytes.2⟩

/-! ### Lossy decoding -/

/-- U+FFFD, which stands for an ill-formed piece. -/
def replacement : Char := '\uFFFD'

/-- A byte `10xxxxxx`. -/
def isContinuation (byte : UInt8) : Bool := 0x80 ≤ byte && byte ≤ 0xBF

/-- The length a first byte announces; `0` for a byte that starts nothing. -/
def charWidth (byte : UInt8) : Nat :=
  if byte < 0x80 then 1
  else if 0xC2 ≤ byte && byte ≤ 0xDF then 2
  else if 0xE0 ≤ byte && byte ≤ 0xEF then 3
  else if 0xF0 ≤ byte && byte ≤ 0xF4 then 4
  else 0

/-- The second bytes that keep a three-byte sequence shortest and off the surrogates. -/
def secondOfThree (byte next : UInt8) : Bool :=
  if byte = 0xE0 then 0xA0 ≤ next && next ≤ 0xBF
  else if byte = 0xED then 0x80 ≤ next && next ≤ 0x9F
  else isContinuation next

/-- The second bytes that keep a four-byte sequence shortest and below U+110000. -/
def secondOfFour (byte next : UInt8) : Bool :=
  if byte = 0xF0 then 0x90 ≤ next && next ≤ 0xBF
  else if byte = 0xF4 then 0x80 ≤ next && next ≤ 0x8F
  else isContinuation next

/-- The payload of a continuation byte. -/
def payload (byte : UInt8) : Nat := byte.toNat % 64

/-- The characters of a byte string, ill-formed pieces replaced. -/
def lossyChars : Bytes → List Char
  | [] => []
  | byte :: rest =>
    match charWidth byte with
    | 1 => Char.ofNat byte.toNat :: lossyChars rest
    | 2 =>
      match rest with
      | [] => [replacement]
      | second :: rest' =>
        if isContinuation second then
          Char.ofNat (byte.toNat % 32 * 64 + payload second) :: lossyChars rest'
        else replacement :: lossyChars (second :: rest')
    | 3 =>
      match rest with
      | [] => [replacement]
      | second :: rest' =>
        if secondOfThree byte second then
          match rest' with
          | [] => [replacement]
          | third :: rest'' =>
            if isContinuation third then
              Char.ofNat ((byte.toNat % 16 * 64 + payload second) * 64 + payload third) ::
                lossyChars rest''
            else replacement :: lossyChars (third :: rest'')
        else replacement :: lossyChars (second :: rest')
    | 4 =>
      match rest with
      | [] => [replacement]
      | second :: rest' =>
        if secondOfFour byte second then
          match rest' with
          | [] => [replacement]
          | third :: rest'' =>
            if isContinuation third then
              match rest'' with
              | [] => [replacement]
              | fourth :: rest''' =>
                if isContinuation fourth then
                  Char.ofNat (((byte.toNat % 8 * 64 + payload second) * 64 + payload third) * 64 +
                    payload fourth) :: lossyChars rest'''
                else replacement :: lossyChars (fourth :: rest''')
            else replacement :: lossyChars (third :: rest'')
        else replacement :: lossyChars (second :: rest')
    | _ => replacement :: lossyChars rest

/-- `String::from_utf8_lossy`. -/
def fromUtf8Lossy (data : Bytes) : String := String.ofList (lossyChars data)

/-- Ill-formed pieces: a lone continuation byte, a truncated sequence, an overlong start. -/
example : lossyChars [0x61, 0x80, 0xE2, 0x82, 0x62, 0xC0, 0xAF] =
    ['a', replacement, replacement, 'b', replacement, replacement] := by decide

end Codexec
