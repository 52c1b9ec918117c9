/-
**The stored form of test results.**

The column `test_results` holds the compact JSON of the results, as `serde_json` writes it: objects
whose absent optional fields are left out, decimal numbers, and strings with two-character escapes
for quotes, backslashes and the usual control characters and `\u00xx` for the other ones. Reading
covers the texts that are written this way, and nothing else is ever stored.
-/

import Codexec.Judge.Verdict
import Codexec.Library.Codec
import Mathlib.Algebra.Group.Nat.Defs

namespace Codexec

open Codexec.Library

/-! ### Strings -/

/-- The letter of a two-character escape. -/
def escapeLetter (c : Char) : Option Char :=
  if c = '"' then some '"'
  else if c = '\\' then some '\\'
  else if c = '\x08' then some 'b'
  else if c = '\t' then some 't'
  else if c = '\n' then some 'n'
  else if c = '\x0c' then some 'f'
  else if c = '\r' then some 'r'
  else none

def unescapeLetter (letter : Char) : Option Char :=
  if letter = '"' then some '"'
  else if letter = '\\' then some '\\'
  else if letter = 'b' then some '\x08'
  else if letter = 't' then some '\t'
  else if letter = 'n' then some '\n'
  else if letter = 'f' then some '\x0c'
  else if letter = 'r' then some '\r'
  else none

def hexValue (digit : Char) : Nat :=
  if digit.isDigit then digit.toNat - '0'.toNat else digit.toNat - 'a'.toNat + 10

def printChar (c : Char) : List Char :=
  match escapeLetter c with
  | some letter => ['\\', letter]
  | none =>
    if c.toNat < 0x20 then
      ['\\', 'u', '0', '0', Nat.digitChar (c.toNat / 16), Nat.digitChar (c.toNat % 16)]
    else [c]

/-- One character of a string, plain or escaped. -/
def readChar : List Char → Option (Char × List Char)
  | [] => none
  | c :: rest =>
    if c = '"' then none
    else if c = '\\' then
      match rest with
      | 'u' :: '0' :: '0' :: high :: low :: rest' =>
        some (Char.ofNat (hexValue high * 16 + hexValue low), rest')
      | letter :: rest' => (unescapeLetter letter).map fun plain => (plain, rest')
      | [] => none
    else some (c, rest)

theorem unescapeLetter_of_escapeLetter {c letter : Char} (short : escapeLetter c = some letter) :
    letter ≠ 'u' ∧ unescapeLetter letter = some c := by
  unfold escapeLetter at short
  repeat' split at short
  all_goals cases short
  all_goals subst c
  all_goals exact ⟨by decide, rfl⟩

theorem plain_of_escapeLetter {c : Char} (long : escapeLetter c = none) : c ≠ '"' ∧ c ≠ '\\' := by
  constructor
  · rintro rfl
    exact absurd long (by decide)
  · rintro rfl
    exact absurd long (by decide)

/-- The two digits of a control character give it back. -/
theorem hexValue_digits : ∀ n < 0x20,
    hexValue (Nat.digitChar (n / 16)) * 16 + hexValue (Nat.digitChar (n % 16)) = n := by
  decide

theorem readChar_printChar : Reads printChar readChar fun _ => True := by
  intro c rest _
  unfold printChar
  cases short : escapeLetter c with
  | some letter =>
    obtain ⟨other, back⟩ := unescapeLetter_of_escapeLetter short
    show readChar ('\\' :: letter :: rest) = _
    simp [readChar, other, back]
  | none =>
    obtain ⟨quote, backslash⟩ := plain_of_escapeLetter short
    by_cases control : c.toNat < 0x20
    · simp only [if_pos control]
      show some (Char.ofNat (_ * 16 + _), rest) = _
      rw [hexValue_digits _ control, Char.ofNat_toNat]
    · simp [readChar, control, quote, backslash]

/-- No character begins with the quote that ends a string. -/
theorem printChar_opens (c : Char) (rest : List Char) :
    (printChar c ++ rest).head? ≠ some '"' := by
  unfold printChar
  cases short : escapeLetter c with
  | some letter =>
    intro same
    exact absurd (Option.some.inj same) (by decide)
  | none =>
    by_cases control : c.toNat < 0x20
    · simp only [if_pos control]
      intro same
      exact absurd (Option.some.inj same) (by decide)
    · simp only [if_neg control]
      exact fun same => (plain_of_escapeLetter short).1 (Option.some.inj same)

def printText (text : String) : List Char := '"' :: printUntil '"' printChar text.toList

def readText (symbols : List Char) : Option (String × List Char) :=
  (skip '"' (readAll '"' readChar) symbols).map fun found => (String.ofList found.1, found.2)

theorem readText_printText : Reads printText readText fun _ => True := by
  intro text rest _
  have inner : Reads (printUntil '"' printChar) (readAll '"' readChar) fun _ => True :=
    readChar_printChar.all printChar_opens (fun _ => trivial) fun _ _ => trivial
  rw [readText, printText, inner.skipped '"' text.toList rest trivial, Option.map_some,
    String.ofList_toList]

/-! ### Objects -/

/-- The values that occur in a test result. -/
inductive Atom
  | text (value : String)
  | number (value : Nat)
  deriving DecidableEq

/-- The symbols that can come after a value. -/
def afterAtom (rest : List Char) : Prop := ∃ c tail, rest = c :: tail ∧ (c = ',' ∨ c = '}')

def printAtom : Atom → List Char
  | .text value => printText value
  | .number value => Nat.toDigits 10 value

def readAtom (symbols : List Char) : Option (Atom × List Char) :=
  if symbols.head? = some '"' then
    (readText symbols).map fun found => (.text found.1, found.2)
  else
    let digits := symbols.takeWhile Char.isDigit
    if digits = [] then none
    else some (.number (Nat.ofDigitChars 10 digits 0), symbols.dropWhile Char.isDigit)

theorem readAtom_printAtom : Reads printAtom readAtom afterAtom := by
  intro atom rest after
  cases atom with
  | text value =>
    have quoted : (printAtom (.text value) ++ rest).head? = some '"' := rfl
    rw [readAtom, if_pos quoted, printAtom, readText_printText value rest trivial]
    rfl
  | number value =>
    obtain ⟨c, tail, rfl, ends⟩ := after
    have digits : ∀ d ∈ Nat.toDigits 10 value, d.isDigit = true := fun d inside =>
      Nat.isDigit_of_mem_toDigits (by decide) (by decide) inside
    have stops : c.isDigit = false := by
      rcases ends with rfl | rfl <;> decide
    have taken : (Nat.toDigits 10 value ++ c :: tail).takeWhile Char.isDigit =
        Nat.toDigits 10 value := by
      rw [List.takeWhile_append_of_pos digits]
      simp [stops]
    have dropped : (Nat.toDigits 10 value ++ c :: tail).dropWhile Char.isDigit = c :: tail := by
      rw [List.dropWhile_append_of_pos digits]
      simp [stops]
    have unquoted : (Nat.toDigits 10 value ++ c :: tail).head? ≠ some '"' := by
      cases same : Nat.toDigits 10 value with
      | nil => exact absurd same Nat.toDigits_ne_nil
      | cons first others =>
        intro quoted
        have digit := digits first (by rw [same]; exact List.mem_cons_self)
        rw [Option.some.inj quoted] at digit
        exact absurd digit (by decide)
    rw [readAtom, printAtom, if_neg unquoted]
    simp only [taken, dropped, if_neg Nat.toDigits_ne_nil, Nat.ofDigitChars_ten_toDigits]

/-- A key and a value. -/
def printField (field : String × Atom) : List Char :=
  printText field.1 ++ ':' :: printAtom field.2

def readField (symbols : List Char) : Option ((String × Atom) × List Char) :=
  (readText symbols).bind fun key =>
    (skip ':' readAtom key.2).map fun value => ((key.1, value.1), value.2)

theorem readField_printField : Reads printField readField afterAtom := by
  intro field rest after
  rw [printField, List.append_assoc, readField, readText_printText _ _ trivial, Option.bind_some,
    readAtom_printAtom.skipped ':' field.2 rest after]
  rfl

def printObject (fields : List (String × Atom)) : List Char :=
  '{' :: printMany '}' ',' printField fields

theorem readObject_printObject :
    Reads printObject (skip '{' (readMany '}' ',' readField)) fun _ => True := by
  have fields : Reads (printMany '}' ',' printField) (readMany '}' ',' readField) fun _ => True := by
    refine readField_printField.many (by decide) ?_ ?_ ?_
    · intro field rest same
      exact absurd (Option.some.inj same) (by decide)
    · exact fun rest => ⟨'}', rest, rfl, Or.inr rfl⟩
    · exact fun rest => ⟨',', rest, rfl, Or.inl rfl⟩
  exact fields.skipped '{'

/-- An array of objects. -/
def printObjects (objects : List (List (String × Atom))) : List Char :=
  '[' :: printMany ']' ',' printObject objects

def readObjects : List Char → Option (List (List (String × Atom)) × List Char) :=
  skip '[' (readMany ']' ',' (skip '{' (readMany '}' ',' readField)))

theorem readObjects_printObjects : Reads printObjects readObjects fun _ => True := by
  refine Reads.skipped ?_ '['
  refine readObject_printObject.many (by decide) ?_ (fun _ => trivial) fun _ => trivial
  intro object rest same
  exact absurd (Option.some.inj same) (by decide)

/-! ### Test results -/

/-- A field that is left out when it is absent. -/
def optional (key : String) (value : Option String) : List (String × Atom) :=
  value.toList.map fun text => (key, .text text)

def TestResult.fields (result : TestResult) : List (String × Atom) :=
  [("name", .text result.name), ("verdict", .text result.verdict.code),
    ("time_ms", .number result.timeMs.toNat), ("memory_kb", .number result.memoryKb.toNat)] ++
  optional "message" result.message ++ optional "input" result.input ++
  optional "expected" result.expected ++ optional "stdout" result.stdout ++
  optional "stderr" result.stderr

def textField (fields : List (String × Atom)) (key : String) : Option String :=
  match fields.lookup key with
  | some (.text value) => some value
  | _ => none

def numberField (fields : List (String × Atom)) (key : String) : Option UInt64 :=
  match fields.lookup key with
  | some (.number value) => if value < 2 ^ 64 then some (UInt64.ofNat value) else none
  | _ => none

/-- A field that may be left out. -/
def optionalField (fields : List (String × Atom)) (key : String) : Option (Option String) :=
  match fields.lookup key with
  | none => some none
  | some (.text value) => some (some value)
  | some (.number _) => none

def TestResult.ofFields (fields : List (String × Atom)) : Option TestResult := do
  let name ← textField fields "name"
  let verdict ← (textField fields "verdict").bind Verdict.fromCode
  let timeMs ← numberField fields "time_ms"
  let memoryKb ← numberField fields "memory_kb"
  let message ← optionalField fields "message"
  let input ← optionalField fields "input"
  let expected ← optionalField fields "expected"
  let stdout ← optionalField fields "stdout"
  let stderr ← optionalField fields "stderr"
  pure ⟨name, verdict, timeMs, memoryKb, message, input, expected, stdout, stderr⟩

@[simp] theorem lookup_optional (key other : String) (value : Option String) :
    (optional other value).lookup key = if key == other then value.map .text else none := by
  cases value with
  | none => simp [optional]
  | some text => by_cases same : key == other <;> simp [optional, List.lookup_cons, same]

theorem textField_of_lookup {fields : List (String × Atom)} {key value : String}
    (found : fields.lookup key = some (.text value)) : textField fields key = some value := by
  rw [textField, found]

theorem numberField_of_lookup {fields : List (String × Atom)} {key : String} {value : UInt64}
    (found : fields.lookup key = some (.number value.toNat)) :
    numberField fields key = some value := by
  have fits : value.toNat < 2 ^ 64 := value.toNat_lt
  simp only [numberField, found]
  rw [if_pos fits, UInt64.ofNat_toNat]

theorem optionalField_of_lookup {fields : List (String × Atom)} {key : String}
    {value : Option String} (found : fields.lookup key = value.map .text) :
    optionalField fields key = some value := by
  cases value <;> simp [optionalField, found]

theorem TestResult.ofFields_fields (result : TestResult) :
    TestResult.ofFields result.fields = some result := by
  have name : textField result.fields "name" = some result.name := textField_of_lookup rfl
  have verdict : textField result.fields "verdict" = some result.verdict.code :=
    textField_of_lookup rfl
  have timeMs : numberField result.fields "time_ms" = some result.timeMs :=
    numberField_of_lookup rfl
  have memoryKb : numberField result.fields "memory_kb" = some result.memoryKb :=
    numberField_of_lookup rfl
  have message : optionalField result.fields "message" = some result.message :=
    optionalField_of_lookup (by simp [fields, List.lookup_append, List.lookup_cons])
  have input : optionalField result.fields "input" = some result.input :=
    optionalField_of_lookup (by simp [fields, List.lookup_append, List.lookup_cons])
  have expected : optionalField result.fields "expected" = some result.expected :=
    optionalField_of_lookup (by simp [fields, List.lookup_append, List.lookup_cons])
  have stdout : optionalField result.fields "stdout" = some result.stdout :=
    optionalField_of_lookup (by simp [fields, List.lookup_append, List.lookup_cons])
  have stderr : optionalField result.fields "stderr" = some result.stderr :=
    optionalField_of_lookup (by simp [fields, List.lookup_append, List.lookup_cons])
  simp [ofFields, name, verdict, timeMs, memoryKb, message, input, expected, stdout, stderr]

/-- `serde_json::to_string(&result.tests)` -/
def testsToJson (tests : List TestResult) : String :=
  String.ofList (printObjects (tests.map TestResult.fields))

/-- `serde_json::from_str(&j).ok()` -/
def testsFromJson (text : String) : Option (List TestResult) :=
  match readObjects text.toList with
  | some (objects, []) => objects.mapM TestResult.ofFields
  | _ => none

theorem mapM_ofFields (tests : List TestResult) :
    (tests.map TestResult.fields).mapM TestResult.ofFields = some tests := by
  induction tests with
  | nil => rfl
  | cons result rest ih => simp [List.mapM_cons, TestResult.ofFields_fields, ih]

/-- **Stored test results read back.** -/
theorem testsFromJson_testsToJson (tests : List TestResult) :
    testsFromJson (testsToJson tests) = some tests := by
  have read := readObjects_printObjects (tests.map TestResult.fields) [] trivial
  rw [List.append_nil] at read
  rw [testsFromJson, testsToJson, String.toList_ofList, read]
  exact mapM_ofFields tests

example : testsToJson [⟨"a", .accepted, 3, 20, none, none, none, some "\n", none⟩] =
    "[\x7b\"name\":\"a\",\"verdict\":\"AC\",\"time_ms\":3,\"memory_kb\":20,\"stdout\":\"\\n\"\x7d]" := by
  decide

end Codexec
