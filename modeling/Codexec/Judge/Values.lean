/-
**What is served as JSON.**

A body is a value of a few layers: texts, numbers, `null`, and lists and objects of values of the
layer below (`Layer`). `serde_json` writes it without blanks, so every value reads back in front of
whatever ends a value (`Writes.layer`), and there is no control character in it: line breaks of a
program's output are escapes (`Plain.layer`).

The values of a test result and of a result are those of the derived `Serialize` instances, with the
fields in the order of the source, some of them left out when they are absent.
-/

import Codexec.Judge.Json

namespace Codexec

open Codexec.Library

/-! ### Values -/

/-- A value without parts. -/
inductive Scalar
  | text (value : String)
  | number (value : Int)
  | null
  deriving DecidableEq

/-- A value whose parts are values of the layer below. -/
inductive Layer (α : Type)
  | scalar (value : Scalar)
  | array (values : List α)
  | object (fields : List (String × α))

/-- A value ends at the end of the text, or before one of these. -/
def afterValue (rest : List Char) : Prop := ∀ c ∈ rest.head?, c = ',' ∨ c = '}' ∨ c = ']'

def printNumber : Int → List Char
  | .ofNat n => Nat.toDigits 10 n
  | .negSucc n => '-' :: Nat.toDigits 10 (n + 1)

def printScalar : Scalar → List Char
  | .text value => printText value
  | .number value => printNumber value
  | .null => ['n', 'u', 'l', 'l']

def readNat (symbols : List Char) : Option (Nat × List Char) :=
  let digits := symbols.takeWhile Char.isDigit
  if digits = [] then none
  else some (Nat.ofDigitChars 10 digits 0, symbols.dropWhile Char.isDigit)

def readScalar (symbols : List Char) : Option (Scalar × List Char) :=
  if symbols.head? = some '"' then
    (readText symbols).map fun found => (.text found.1, found.2)
  else if symbols.head? = some '-' then
    (readNat symbols.tail).map fun found => (.number (-found.1), found.2)
  else if symbols.take 4 = ['n', 'u', 'l', 'l'] then some (.null, symbols.drop 4)
  else (readNat symbols).map fun found => (.number found.1, found.2)

section Layers

variable {α : Type} (print : α → List Char) (read : List Char → Option (α × List Char))

/-- A key and a value. -/
def printEntry (entry : String × α) : List Char := printText entry.1 ++ ':' :: print entry.2

def readEntry (symbols : List Char) : Option ((String × α) × List Char) :=
  (readText symbols).bind fun key =>
    (skip ':' read key.2).map fun value => ((key.1, value.1), value.2)

def printLayer : Layer α → List Char
  | .scalar value => printScalar value
  | .array values => '[' :: printMany ']' ',' print values
  | .object fields => '{' :: printMany '}' ',' (printEntry print) fields

def readLayer (symbols : List Char) : Option (Layer α × List Char) :=
  if symbols.head? = some '[' then
    (readMany ']' ',' read symbols.tail).map fun found => (.array found.1, found.2)
  else if symbols.head? = some '{' then
    (readMany '}' ',' (readEntry read) symbols.tail).map fun found => (.object found.1, found.2)
  else (readScalar symbols).map fun found => (.scalar found.1, found.2)

end Layers

/-! ### Reading back -/

theorem digits_of_toDigits {n : Nat} {c : Char} (inside : c ∈ Nat.toDigits 10 n) :
    c.isDigit = true :=
  Nat.isDigit_of_mem_toDigits (by decide) (by decide) inside

/-- A number begins with a digit. -/
theorem head_toDigits (n : Nat) (rest : List Char) :
    ∃ c, (Nat.toDigits 10 n ++ rest).head? = some c ∧ c.isDigit = true := by
  cases same : Nat.toDigits 10 n with
  | nil => exact absurd same Nat.toDigits_ne_nil
  | cons first others =>
    refine ⟨first, rfl, digits_of_toDigits (n := n) ?_⟩
    rw [same]
    exact List.mem_cons_self

theorem readNat_toDigits : Reads (Nat.toDigits 10) readNat afterValue := by
  intro n rest after
  have stops : rest.takeWhile Char.isDigit = [] ∧ rest.dropWhile Char.isDigit = rest := by
    cases rest with
    | nil => exact ⟨rfl, rfl⟩
    | cons c tail =>
      have other : c.isDigit = false := by
        rcases after c rfl with rfl | rfl | rfl <;> decide
      simp [other]
  have taken : (Nat.toDigits 10 n ++ rest).takeWhile Char.isDigit = Nat.toDigits 10 n := by
    rw [List.takeWhile_append_of_pos fun c inside => digits_of_toDigits inside, stops.1,
      List.append_nil]
  have dropped : (Nat.toDigits 10 n ++ rest).dropWhile Char.isDigit = rest := by
    rw [List.dropWhile_append_of_pos fun c inside => digits_of_toDigits inside, stops.2]
  simp only [readNat, taken, dropped, if_neg Nat.toDigits_ne_nil, Nat.ofDigitChars_ten_toDigits]

theorem readScalar_printScalar : Reads printScalar readScalar afterValue := by
  intro value rest after
  cases value with
  | text value =>
    have quoted : (printScalar (.text value) ++ rest).head? = some '"' := rfl
    rw [readScalar, if_pos quoted, printScalar, readText_printText value rest trivial]
    rfl
  | null => rfl
  | number value =>
    cases value with
    | ofNat n =>
      obtain ⟨c, first, digit⟩ := head_toDigits n rest
      have plain : c ≠ '"' ∧ c ≠ '-' ∧ c ≠ 'n' := by
        refine ⟨?_, ?_, ?_⟩
        all_goals
          rintro rfl
          exact absurd digit (by decide)
      have word : (Nat.toDigits 10 n ++ rest).take 4 ≠ ['n', 'u', 'l', 'l'] := by
        intro same
        have head := congrArg List.head? same
        rw [List.head?_take, if_neg (by decide), first] at head
        exact plain.2.2 (Option.some.inj head)
      rw [readScalar, printScalar, printNumber, first, if_neg (by simpa using plain.1),
        if_neg (by simpa using plain.2.1), if_neg word, readNat_toDigits n rest after]
      rfl
    | negSucc n =>
      rw [readScalar, printScalar, printNumber, if_neg (by simp), if_pos (by simp)]
      show Option.map _ (readNat (Nat.toDigits 10 (n + 1) ++ rest)) = _
      rw [readNat_toDigits (n + 1) rest after]
      rfl

/-- Values that read back, and that no list ends with. -/
structure Writes {α : Type} (print : α → List Char) (read : List Char → Option (α × List Char)) :
    Prop where
  reads : Reads print read afterValue
  opens : ∀ value rest, (print value ++ rest).head? ≠ some ']'

theorem writes_nothing (print : Empty → List Char) (read : List Char → Option (Empty × List Char)) :
    Writes print read :=
  ⟨nofun, nofun⟩

/-- A scalar begins like no list, object or end of one. -/
theorem head_printScalar (value : Scalar) (rest : List Char) :
    ∃ c, (printScalar value ++ rest).head? = some c ∧ c ≠ '[' ∧ c ≠ '{' ∧ c ≠ ']' := by
  cases value with
  | text value => exact ⟨'"', rfl, by decide⟩
  | null => exact ⟨'n', rfl, by decide⟩
  | number value =>
    cases value with
    | ofNat n =>
      obtain ⟨c, first, digit⟩ := head_toDigits n rest
      refine ⟨c, first, ?_, ?_, ?_⟩
      all_goals
        rintro rfl
        exact absurd digit (by decide)
    | negSucc n => exact ⟨'-', rfl, by decide⟩

section Layers

variable {α : Type} {print : α → List Char} {read : List Char → Option (α × List Char)}

theorem Writes.entry (writes : Writes print read) :
    Reads (printEntry print) (readEntry read) afterValue := by
  intro entry rest after
  rw [printEntry, List.append_assoc, readEntry, readText_printText _ _ trivial, Option.bind_some,
    writes.reads.skipped ':' entry.2 rest after]
  rfl

theorem Writes.array (writes : Writes print read) :
    Reads (printMany ']' ',' print) (readMany ']' ',' read) fun _ => True := by
  refine writes.reads.many (by decide) writes.opens ?_ ?_
  · rintro rest c ⟨⟩
    exact Or.inr (Or.inr rfl)
  · rintro rest c ⟨⟩
    exact Or.inl rfl

theorem Writes.object (writes : Writes print read) :
    Reads (printMany '}' ',' (printEntry print)) (readMany '}' ',' (readEntry read))
      fun _ => True := by
  refine writes.entry.many (by decide) ?_ ?_ ?_
  · intro entry rest same
    exact absurd (Option.some.inj same) (by decide)
  · rintro rest c ⟨⟩
    exact Or.inr (Or.inl rfl)
  · rintro rest c ⟨⟩
    exact Or.inl rfl

/-- **What is built of values that read back reads back.** -/
theorem Writes.layer (writes : Writes print read) : Writes (printLayer print) (readLayer read) where
  reads := by
    intro value rest after
    cases value with
    | scalar value =>
      obtain ⟨c, first, list, object, -⟩ := head_printScalar value rest
      rw [readLayer, printLayer, first, if_neg (by simpa using list),
        if_neg (by simpa using object), readScalar_printScalar value rest after]
      rfl
    | array values =>
      have list : (printLayer print (.array values) ++ rest).head? = some '[' := rfl
      rw [readLayer, if_pos list]
      show Option.map _ (readMany ']' ',' read (printMany ']' ',' print values ++ rest)) = _
      rw [writes.array values rest trivial]
      rfl
    | object fields =>
      have object : (printLayer print (.object fields) ++ rest).head? = some '{' := rfl
      have other : (printLayer print (.object fields) ++ rest).head? ≠ some '[' := by
        rw [object]
        decide
      rw [readLayer, if_neg other, if_pos object]
      show Option.map _ (readMany '}' ',' (readEntry read)
        (printMany '}' ',' (printEntry print) fields ++ rest)) = _
      rw [writes.object fields rest trivial]
      rfl
  opens := by
    intro value rest same
    cases value with
    | scalar value =>
      obtain ⟨c, first, -, -, other⟩ := head_printScalar value rest
      exact other (Option.some.inj (first.symm.trans same))
    | array values => exact absurd (Option.some.inj same) (by decide)
    | object fields => exact absurd (Option.some.inj same) (by decide)

/-- The whole text of a value. -/
def readWhole (read : List Char → Option (α × List Char)) (text : String) : Option α :=
  match read text.toList with
  | some (value, []) => some value
  | _ => none

theorem Writes.whole (writes : Writes print read) (value : α) :
    readWhole read (String.ofList (print value)) = some value := by
  have found := writes.reads value [] nofun
  rw [List.append_nil] at found
  rw [readWhole, String.toList_ofList, found]

end Layers

/-! ### One line -/

/-- Nothing that is printed is a control character. -/
def Plain {α : Type} (print : α → List Char) : Prop := ∀ value, ∀ c ∈ print value, 0x20 ≤ c.toNat

theorem plain_char : Plain printChar := by
  intro c d inside
  unfold printChar at inside
  cases short : escapeLetter c with
  | some letter =>
    rw [short] at inside
    have known : 0x20 ≤ letter.toNat := by
      unfold escapeLetter at short
      repeat' split at short
      all_goals cases short
      all_goals decide
    rcases List.mem_cons.mp inside with rfl | inside
    · decide
    · rw [List.mem_singleton.mp inside]
      exact known
  | none =>
    rw [short] at inside
    by_cases control : c.toNat < 0x20
    · simp only [if_pos control] at inside
      have digits : ∀ n < 0x20, 0x20 ≤ (Nat.digitChar (n / 16)).toNat ∧
          0x20 ≤ (Nat.digitChar (n % 16)).toNat := by decide
      obtain ⟨high, low⟩ := digits _ control
      simp only [List.mem_cons, List.not_mem_nil, or_false] at inside
      rcases inside with rfl | rfl | rfl | rfl | rfl | rfl <;> first | decide | assumption
    · simp only [if_neg control, List.mem_singleton] at inside
      rw [inside]
      exact Nat.le_of_not_lt control

theorem plain_text : Plain printText := by
  intro text c inside
  rcases List.mem_cons.mp inside with rfl | inside
  · decide
  · rcases mem_printUntil inside with rfl | ⟨letter, -, here⟩
    · decide
    · exact plain_char letter c here

theorem plain_scalar : Plain printScalar := by
  have plainDigits : ∀ n, ∀ c ∈ Nat.toDigits 10 n, 0x20 ≤ c.toNat := by
    intro n c inside
    have digit := digits_of_toDigits inside
    rw [Char.isDigit, Bool.and_eq_true, decide_eq_true_eq] at digit
    exact Nat.le_trans (by decide) (UInt32.le_iff_toNat_le.mp digit.1)
  intro value c inside
  cases value with
  | text value => exact plain_text value c inside
  | null =>
    simp only [printScalar, List.mem_cons, List.not_mem_nil, or_false] at inside
    rcases inside with rfl | rfl | rfl | rfl <;> decide
  | number value =>
    cases value with
    | ofNat n => exact plainDigits n c inside
    | negSucc n =>
      rcases List.mem_cons.mp inside with rfl | inside
      · decide
      · exact plainDigits (n + 1) c inside

theorem Plain.layer {α : Type} {print : α → List Char} (plain : Plain print) :
    Plain (printLayer print) := by
  have entry : Plain (printEntry print) := by
    intro entry c inside
    rcases List.mem_append.mp inside with key | value
    · exact plain_text entry.1 c key
    · rcases List.mem_cons.mp value with rfl | value
      · decide
      · exact plain entry.2 c value
  intro value c inside
  cases value with
  | scalar value => exact plain_scalar value c inside
  | array values =>
    rcases List.mem_cons.mp inside with rfl | inside
    · decide
    · rcases mem_printMany inside with rfl | rfl | ⟨part, -, here⟩
      · decide
      · decide
      · exact plain part c here
  | object fields =>
    rcases List.mem_cons.mp inside with rfl | inside
    · decide
    · rcases mem_printMany inside with rfl | rfl | ⟨part, -, here⟩
      · decide
      · decide
      · exact entry part c here

/-! ### Fields -/

namespace Layer

variable {α β : Type}

def ofText (value : String) : Layer α := .scalar (.text value)

def ofNumber (value : Int) : Layer α := .scalar (.number value)

/-- An absent value that is written. -/
def orNull (value : Option (Layer α)) : Layer α := value.getD (.scalar .null)

/-- A field that is left out when it is absent. -/
def present (key : String) (value : Option (Layer α)) : List (String × Layer α) :=
  value.toList.map fun given => (key, given)

def text : Layer α → Option String
  | .scalar (.text value) => some value
  | _ => none

def nat : Layer α → Option Nat
  | .scalar (.number (.ofNat value)) => some value
  | _ => none

def u64 : Layer α → Option UInt64
  | .scalar (.number (.ofNat value)) => if value < 2 ^ 64 then some (UInt64.ofNat value) else none
  | _ => none

def i64 : Layer α → Option Int64
  | .scalar (.number value) =>
    if Int64.minValue.toInt ≤ value ∧ value ≤ Int64.maxValue.toInt then some (Int64.ofInt value)
    else none
  | _ => none

def nullable (read : Layer α → Option β) : Layer α → Option (Option β)
  | .scalar .null => some none
  | value => (read value).map some

/-- The values of a list. -/
def items (read : α → Option β) : Layer α → Option (List β)
  | .array values => values.mapM read
  | _ => none

/-- A field of an object. -/
def get (read : α → Option β) (key : String) : Layer α → Option β
  | .object fields => (fields.lookup key).bind read
  | _ => none

/-- A field that may be left out. -/
def getPresent (read : α → Option β) (key : String) : Layer α → Option (Option β)
  | .object fields =>
    match fields.lookup key with
    | some value => (read value).map some
    | none => some none
  | _ => none

@[simp] theorem text_ofText (value : String) : (ofText value : Layer α).text = some value := rfl

@[simp] theorem nat_ofNumber (value : Nat) : (ofNumber value : Layer α).nat = some value := rfl

@[simp] theorem u64_ofNumber (value : UInt64) :
    (ofNumber value.toNat : Layer α).u64 = some value := by
  show (if value.toNat < 2 ^ 64 then some (UInt64.ofNat value.toNat) else none) = _
  rw [if_pos value.toNat_lt, UInt64.ofNat_toNat]

@[simp] theorem i64_ofNumber (value : Int64) :
    (ofNumber value.toInt : Layer α).i64 = some value := by
  show (if Int64.minValue.toInt ≤ value.toInt ∧ value.toInt ≤ Int64.maxValue.toInt then
    some (Int64.ofInt value.toInt) else none) = _
  rw [if_pos ⟨value.minValue_le_toInt, value.toInt_le⟩, Int64.ofInt_toInt]

/-- What is written of an optional value reads back, if the values do and none is `null`. -/
theorem nullable_orNull {write : β → Layer α} {read : Layer α → Option β}
    (reads : ∀ value, read (write value) = some value)
    (other : ∀ value, write value ≠ .scalar .null) (value : Option β) :
    nullable read (orNull (value.map write)) = some value := by
  cases value with
  | none => rfl
  | some value =>
    show nullable read (write value) = _
    unfold nullable
    split
    · next same => exact absurd same (other value)
    · rw [reads]
      rfl

@[simp] theorem lookup_present (key other : String) (value : Option (Layer α)) :
    (present other value).lookup key = if key == other then value else none := by
  cases value with
  | none => simp [present]
  | some given => by_cases same : key == other <;> simp [present, List.lookup_cons, same]

theorem get_of_lookup {read : α → Option β} {fields : List (String × α)} {key : String} {value : α}
    {result : β} (found : fields.lookup key = some value) (reads : read value = some result) :
    get read key (.object fields) = some result := by
  rw [get, found, Option.bind_some, reads]

theorem getPresent_of_lookup {write : β → α} {read : α → Option β}
    (reads : ∀ value, read (write value) = some value) {fields : List (String × α)} {key : String}
    {value : Option β} (found : fields.lookup key = value.map write) :
    getPresent read key (.object fields) = some value := by
  unfold getPresent
  cases value with
  | none => simp [found]
  | some given => simp [found, reads]

theorem items_map {write : β → α} {read : α → Option β}
    (reads : ∀ value, read (write value) = some value) (values : List β) :
    items read (.array (values.map write)) = some values := by
  show (values.map write).mapM read = _
  induction values with
  | nil => rfl
  | cons value rest ih => simp [List.mapM_cons, reads, ih]

end Layer

/-! ### Results -/

/-- Room for an object with a list of objects. -/
abbrev Nested (α : Type) : Type := Layer (Layer (Layer (Layer α)))

section Results

variable {α : Type}

def Layer.verdict (value : Layer α) : Option Verdict := value.text.bind Verdict.fromCode

@[simp] theorem Layer.verdict_code (verdict : Verdict) :
    (Layer.ofText verdict.code : Layer α).verdict = some verdict := Verdict.fromCode_code verdict

def TestResult.value (self : TestResult) : Layer (Layer α) :=
  .object ([("name", .ofText self.name), ("verdict", .ofText self.verdict.code),
    ("time_ms", .ofNumber self.timeMs.toNat), ("memory_kb", .ofNumber self.memoryKb.toNat)] ++
    Layer.present "message" (self.message.map .ofText) ++
    Layer.present "input" (self.input.map .ofText) ++
    Layer.present "expected" (self.expected.map .ofText) ++
    Layer.present "stdout" (self.stdout.map .ofText) ++
    Layer.present "stderr" (self.stderr.map .ofText))

def TestResult.ofValue (value : Layer (Layer α)) : Option TestResult := do
  let name ← value.get Layer.text "name"
  let verdict ← value.get Layer.verdict "verdict"
  let timeMs ← value.get Layer.u64 "time_ms"
  let memoryKb ← value.get Layer.u64 "memory_kb"
  let message ← value.getPresent Layer.text "message"
  let input ← value.getPresent Layer.text "input"
  let expected ← value.getPresent Layer.text "expected"
  let stdout ← value.getPresent Layer.text "stdout"
  let stderr ← value.getPresent Layer.text "stderr"
  return ⟨name, verdict, timeMs, memoryKb, message, input, expected, stdout, stderr⟩

theorem TestResult.ofValue_value (self : TestResult) :
    TestResult.ofValue (self.value : Layer (Layer α)) = some self := by
  have optional (key : String) (value : Option String)
      (found : ∀ fields, (self.value : Layer (Layer α)) = .object fields →
        fields.lookup key = value.map Layer.ofText) :
      (self.value : Layer (Layer α)).getPresent Layer.text key = some value :=
    Layer.getPresent_of_lookup Layer.text_ofText (found _ rfl)
  unfold TestResult.ofValue
  rw [optional "message" self.message, optional "input" self.input,
    optional "expected" self.expected, optional "stdout" self.stdout,
    optional "stderr" self.stderr]
  · simp [TestResult.value, Layer.get, List.lookup_cons]
  all_goals
    rintro fields ⟨⟩
    simp [List.lookup_append, List.lookup_cons]

def JudgeResult.value (self : JudgeResult) : Nested α :=
  .object ([("verdict", .ofText self.verdict.code), ("time_ms", .ofNumber self.timeMs.toNat),
    ("memory_kb", .ofNumber self.memoryKb.toNat)] ++
    Layer.present "failed_test" (self.failedTest.map .ofText) ++
    Layer.present "compile_output" (self.compileOutput.map .ofText) ++
    [("tests", .array (self.tests.map TestResult.value)),
      ("tests_total", .ofNumber self.testsTotal)])

def JudgeResult.ofValue (value : Nested α) : Option JudgeResult := do
  let verdict ← value.get Layer.verdict "verdict"
  let timeMs ← value.get Layer.u64 "time_ms"
  let memoryKb ← value.get Layer.u64 "memory_kb"
  let failedTest ← value.getPresent Layer.text "failed_test"
  let compileOutput ← value.getPresent Layer.text "compile_output"
  let tests ← value.get (Layer.items TestResult.ofValue) "tests"
  let testsTotal ← value.get Layer.nat "tests_total"
  return ⟨verdict, timeMs, memoryKb, failedTest, compileOutput, tests, testsTotal⟩

theorem JudgeResult.ofValue_value (self : JudgeResult) :
    JudgeResult.ofValue (self.value : Nested α) = some self := by
  have optional (key : String) (value : Option String)
      (found : ∀ fields, (self.value : Nested α) = .object fields →
        fields.lookup key = value.map Layer.ofText) :
      (self.value : Nested α).getPresent Layer.text key = some value :=
    Layer.getPresent_of_lookup Layer.text_ofText (found _ rfl)
  let listed : Layer (Layer (Layer α)) := .array (self.tests.map TestResult.value)
  have tests : Layer.items TestResult.ofValue listed = some self.tests :=
    Layer.items_map TestResult.ofValue_value self.tests
  unfold JudgeResult.ofValue
  rw [optional "failed_test" self.failedTest, optional "compile_output" self.compileOutput]
  · simp [JudgeResult.value, Layer.get, List.lookup_cons, List.lookup_append, listed, tests]
  all_goals
    rintro fields ⟨⟩
    simp [List.lookup_append, List.lookup_cons]

end Results

end Codexec
