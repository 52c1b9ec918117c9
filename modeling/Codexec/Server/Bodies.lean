/-
**The body limit.**

`body_limit` leaves room for every byte of a source and of a custom input to be written with two
bytes. A control character without a letter of its own takes six, so how long a body is depends on
how many such characters its texts have (`length_printText`). A request with few of them fits
(`CreateRun.fits_of_few`); one that consists of them is accepted field by field and is too long
(`exists_rejected`).
-/

import Codexec.Server.Http
import Codexec.Judge.Json

namespace Codexec

open Codexec.Library

/-! ### How long a text is in JSON -/

/-- A character that is written as a backslash and a letter. -/
def isShort (c : Char) : Bool := (escapeLetter c).isSome

/-- A control character that is written with its code. -/
def isLong (c : Char) : Bool := (escapeLetter c).isNone && decide (c.toNat < 0x20)

/-- The bytes of a text, each escape with the bytes it adds. -/
def escapedLength (text : String) : Nat :=
  (utf8 text).length + text.toList.countP isShort + 5 * text.toList.countP isLong

/-- A character with a letter has one byte, and so has the letter. -/
theorem size_of_escapeLetter {c letter : Char} (short : escapeLetter c = some letter) :
    c.utf8Size = 1 ∧ letter.utf8Size = 1 := by
  unfold escapeLetter at short
  repeat' split at short
  all_goals cases short
  all_goals subst c
  all_goals exact ⟨rfl, rfl⟩

/-- The two digits of a control character have one byte each. -/
theorem size_digits : ∀ n < 0x20,
    (Nat.digitChar (n / 16)).utf8Size = 1 ∧ (Nat.digitChar (n % 16)).utf8Size = 1 := by
  decide

theorem size_of_control {c : Char} (control : c.toNat < 0x20) : c.utf8Size = 1 := by
  rw [Char.utf8Size_eq_one_iff]
  show c.toNat ≤ 127
  omega

/-- A short escape adds one byte, a long one five. -/
theorem byteCount_printChar (c : Char) : byteCount (printChar c) =
    c.utf8Size + (if isShort c then 1 else 0) + 5 * (if isLong c then 1 else 0) := by
  unfold printChar isShort isLong
  cases short : escapeLetter c with
  | some letter =>
    obtain ⟨one, one'⟩ := size_of_escapeLetter short
    simp [one, one']
    rfl
  | none =>
    by_cases control : c.toNat < 0x20
    · obtain ⟨one, one'⟩ := size_digits _ control
      simp [control, one, one', size_of_control control]
      rfl
    · simp [control]

theorem byteCount_printUntil (symbols : List Char) :
    byteCount (printUntil '"' printChar symbols) =
      byteCount symbols + symbols.countP isShort + 5 * symbols.countP isLong + 1 := by
  induction symbols with
  | nil => rfl
  | cons c rest ih =>
    rw [printUntil, byteCount_append, byteCount_printChar, ih, byteCount_cons, List.countP_cons,
      List.countP_cons]
    omega

/-- **A quoted text has its bytes, those that escapes add, and two quotes.** -/
theorem length_printText (text : String) :
    byteCount (printText text) = escapedLength text + 2 := by
  rw [printText, byteCount_cons, byteCount_printUntil, escapedLength, length_utf8]
  have quote : '"'.utf8Size = 1 := rfl
  omega

/-- Every short escape is of one byte. -/
theorem countP_isShort_le (text : String) : text.toList.countP isShort ≤ (utf8 text).length := by
  rw [length_utf8]
  induction text.toList with
  | nil => exact Nat.le_refl 0
  | cons c rest ih =>
    rw [List.countP_cons, byteCount_cons]
    have positive := c.utf8Size_pos
    split <;> omega

theorem escapedLength_le (text : String) :
    escapedLength text ≤ 2 * (utf8 text).length + 5 * text.toList.countP isLong := by
  have least := countP_isShort_le text
  rw [escapedLength]
  omega

end Codexec

namespace Codexec.Server

open Codexec Codexec.Library

/-! ### The bodies -/

/-- A key and a text, or `null`. -/
def printMember (member : String × Option String) : List Char :=
  printText member.1 ++ ':' :: member.2.elim "null".toList printText

/-- The compact JSON of an object of texts. -/
def printMembers (members : List (String × Option String)) : String :=
  String.ofList ('{' :: printMany '}' ',' printMember members)

/-- An absent text is written as `null`, or left out. -/
def absentable (nulls : Bool) (key : String) (value : Option String) :
    List (String × Option String) :=
  if value.isNone && !nulls then [] else [(key, value)]

def CreateSubmission.json (body : CreateSubmission) : String :=
  printMembers [("problem", some body.problem), ("language", some body.language),
    ("source", some body.source)]

def CreateRun.json (nulls : Bool) (body : CreateRun) : String :=
  printMembers ([("language", some body.language), ("source", some body.source)] ++
    absentable nulls "stdin" body.stdin ++ absentable nulls "problem" body.problem)

/-- The limit that `router` computes; the sum wraps as in a release build. -/
def bodyLimit (maxSourceBytes : UInt64) : UInt64 :=
  maxSourceBytes * 2 + UInt64.ofNat maxStdinBytes * 2 + 16 * 1024

/-- `RequestBodyLimitLayer` lets a body through. -/
def WithinLimit (maxSourceBytes : UInt64) (body : String) : Prop :=
  (utf8 body).length ≤ (bodyLimit maxSourceBytes).toNat

theorem toNat_bodyLimit (maxSourceBytes : UInt64) :
    (bodyLimit maxSourceBytes).toNat = (2 * maxSourceBytes.toNat + 2113536) % 2 ^ 64 := by
  have stdin : (UInt64.ofNat maxStdinBytes).toNat = 1048576 := rfl
  rw [bodyLimit, UInt64.toNat_add, UInt64.toNat_add, UInt64.toNat_mul, UInt64.toNat_mul, stdin]
  show (_ + 16384) % _ = _
  show ((maxSourceBytes.toNat * 2 % 2 ^ 64 + 1048576 * 2 % 2 ^ 64) % 2 ^ 64 + 16384) % 2 ^ 64 = _
  omega

/-- The bytes of a member and of the comma or brace in front of it. -/
def memberLength (member : String × Option String) : Nat :=
  escapedLength member.1 + 4 + member.2.elim 4 fun text => escapedLength text + 2

theorem byteCount_printMember (member : String × Option String) :
    byteCount (printMember member) + 1 = memberLength member := by
  obtain ⟨key, value⟩ := member
  have colon : ':'.utf8Size = 1 := rfl
  have null : byteCount "null".toList = 4 := rfl
  cases value with
  | none =>
    simp only [printMember, memberLength, byteCount_append, byteCount_cons, length_printText,
      Option.elim_none, colon, null]
  | some text =>
    simp only [printMember, memberLength, byteCount_append, byteCount_cons, length_printText,
      Option.elim_some, colon]
    omega

theorem byteCount_members (members : List (String × Option String)) :
    byteCount (printUntil '}' (fun member => ',' :: printMember member) members) =
      (members.map memberLength).sum + 1 := by
  induction members with
  | nil => rfl
  | cons member rest ih =>
    have comma : ','.utf8Size = 1 := rfl
    rw [printUntil, byteCount_append, byteCount_cons, ih, List.map_cons, List.sum_cons,
      ← byteCount_printMember member, comma]
    omega

/-- **An object is as long as its members and a closing brace.** -/
theorem length_printMembers (first : String × Option String)
    (rest : List (String × Option String)) :
    (utf8 (printMembers (first :: rest))).length =
      memberLength first + (rest.map memberLength).sum + 1 := by
  have brace : '{'.utf8Size = 1 := rfl
  rw [length_utf8, printMembers, String.toList_ofList, byteCount_cons, printMany, byteCount_append,
    byteCount_members, ← byteCount_printMember first, brace]
  omega

/-- The bytes of an optional text, which is framed by its key, its quotes and a comma. -/
def optionLength (nulls : Bool) (frame : Nat) (value : Option String) : Nat :=
  value.elim (if nulls then frame + 2 else 0) fun text => escapedLength text + frame

theorem length_absentable (nulls : Bool) (key : String) (value : Option String) :
    ((absentable nulls key value).map memberLength).sum =
      optionLength nulls (escapedLength key + 6) value := by
  cases value with
  | none =>
    cases nulls with
    | false => rfl
    | true => rfl
  | some text =>
    simp [absentable, optionLength, memberLength]
    omega

theorem CreateSubmission.length_json (body : CreateSubmission) : (utf8 body.json).length =
    escapedLength body.problem + escapedLength body.language + escapedLength body.source + 40 := by
  have problem : escapedLength "problem" = 7 := by decide
  have language : escapedLength "language" = 8 := by decide
  have source : escapedLength "source" = 6 := by decide
  rw [json, length_printMembers]
  simp only [List.map_cons, List.map_nil, List.sum_cons, List.sum_nil, memberLength,
    Option.elim_some, problem, language, source]
  omega

theorem CreateRun.length_json (nulls : Bool) (body : CreateRun) : (utf8 (body.json nulls)).length =
    escapedLength body.language + escapedLength body.source + optionLength nulls 11 body.stdin +
      optionLength nulls 13 body.problem + 27 := by
  have problem : escapedLength "problem" = 7 := by decide
  have language : escapedLength "language" = 8 := by decide
  have source : escapedLength "source" = 6 := by decide
  have stdin : escapedLength "stdin" = 5 := by decide
  rw [json, List.append_assoc, List.cons_append, length_printMembers]
  simp only [List.cons_append, List.nil_append, List.map_cons, List.map_append, List.sum_cons,
    List.sum_append, length_absentable, memberLength, Option.elim_some, problem, language, source,
    stdin, Nat.reduceAdd]
  omega

/-! ### What fits -/

/-- What the checks of the fields, and two short names, promise of a submission. -/
structure CreateSubmission.Admissible (maxSourceBytes : UInt64) (body : CreateSubmission) :
    Prop where
  source : (utf8 body.source).length ≤ maxSourceBytes.toNat
  language : (utf8 body.language).length ≤ 1024
  problem : (utf8 body.problem).length ≤ 1024

/-- What they promise of a run. -/
structure CreateRun.Admissible (maxSourceBytes : UInt64) (body : CreateRun) : Prop where
  source : (utf8 body.source).length ≤ maxSourceBytes.toNat
  stdin : ∀ text, body.stdin = some text → (utf8 text).length ≤ maxStdinBytes
  language : (utf8 body.language).length ≤ 1024
  problem : ∀ slug, body.problem = some slug → (utf8 slug).length ≤ 1024

/-- The characters that are written with their code. -/
def longs (text : String) : Nat := text.toList.countP isLong

theorem optionLength_le {nulls : Bool} {frame most : Nat} {value : Option String}
    (short : ∀ text, value = some text → (utf8 text).length ≤ most) :
    optionLength nulls frame value ≤ 2 * most + 5 * value.elim 0 longs + frame + 2 := by
  cases value with
  | none => cases nulls <;> simp [optionLength]
  | some text =>
    have bytes := short text rfl
    have least := escapedLength_le text
    show escapedLength text + frame ≤ 2 * most + 5 * text.toList.countP isLong + frame + 2
    omega

/-- **A submission with few such characters fits**, unless the limit wraps. -/
theorem CreateSubmission.fits_of_few {maxSourceBytes : UInt64} {body : CreateSubmission}
    (admissible : body.Admissible maxSourceBytes)
    (exact : 2 * maxSourceBytes.toNat + 2113536 < 2 ^ 64)
    (few : longs body.problem + longs body.language + longs body.source ≤ 2000) :
    WithinLimit maxSourceBytes body.json := by
  have source := escapedLength_le body.source
  have language := escapedLength_le body.language
  have problem := escapedLength_le body.problem
  have bytes := admissible.source
  have bytes' := admissible.language
  have bytes'' := admissible.problem
  unfold longs at few
  rw [WithinLimit, toNat_bodyLimit, Nat.mod_eq_of_lt exact, length_json]
  omega

/-- **So does a run.** -/
theorem CreateRun.fits_of_few {maxSourceBytes : UInt64} {body : CreateRun} (nulls : Bool)
    (admissible : body.Admissible maxSourceBytes)
    (exact : 2 * maxSourceBytes.toNat + 2113536 < 2 ^ 64)
    (few : longs body.language + longs body.source + body.stdin.elim 0 longs +
      body.problem.elim 0 longs ≤ 2000) : WithinLimit maxSourceBytes (body.json nulls) := by
  have source := escapedLength_le body.source
  have language := escapedLength_le body.language
  have stdin : optionLength nulls 11 body.stdin ≤ _ := optionLength_le admissible.stdin
  have problem : optionLength nulls 13 body.problem ≤ _ := optionLength_le admissible.problem
  have bytes := admissible.source
  have bytes' := admissible.language
  have most : maxStdinBytes = 1048576 := rfl
  unfold longs at few source language
  rw [WithinLimit, toNat_bodyLimit, Nat.mod_eq_of_lt exact, length_json]
  unfold longs at stdin problem
  omega

/-! ### What does not fit -/

/-- A text of control characters. -/
def stuffed (n : Nat) : String := String.ofList (List.replicate n '\x01')

theorem length_stuffed (n : Nat) : (utf8 (stuffed n)).length = n := by
  have one : '\x01'.utf8Size = 1 := rfl
  rw [length_utf8, stuffed, String.toList_ofList, byteCount_replicate, one, Nat.mul_one]

theorem escapedLength_stuffed (n : Nat) : escapedLength (stuffed n) = 6 * n := by
  have short : isShort '\x01' = false := by decide
  have long : isLong '\x01' = true := by decide
  rw [escapedLength, length_stuffed, stuffed, String.toList_ofList, List.countP_replicate,
    List.countP_replicate, short, long]
  simp
  omega

/-- It is not blank. -/
theorem trim_stuffed (n : Nat) : trim (stuffed (n + 1)).toList ≠ [] := by
  have solid : ¬isWhiteSpace '\x01' = true := by decide
  rw [stuffed, String.toList_ofList, List.replicate_succ, trim, List.dropWhile_cons_of_neg solid, Ne,
    List.rdropWhile_eq_nil_iff]
  exact fun blank => solid (blank _ List.mem_cons_self)

section Rejected

variable [Host] {settings : Settings} {maxSourceBytes : Nat}

/-- What `create_run` checks of a run on custom input. -/
theorem newRun_ok {language source stdin : String}
    (known : (settings.judge.languages.get language).isSome) (text : trim source.toList ≠ [])
    (short : (utf8 source).length ≤ maxSourceBytes) (short' : (utf8 stdin).length ≤ maxStdinBytes) :
    ∃ job, newRun settings maxSourceBytes ⟨language, source, some stdin, none⟩ = .ok job := by
  have found : (settings.judge.languages.get language).isNone = false := by
    rw [← Option.not_isSome, known]
    rfl
  have some : (trim source.toList).isEmpty = false := by
    rw [Bool.eq_false_iff, Ne, List.isEmpty_iff]
    exact text
  have checked : checkSource settings maxSourceBytes language source = .ok () := by
    simp [checkSource, found, some, Nat.not_lt.mpr short]
    rfl
  simp only [newRun, checked, Option.any_some, Nat.not_lt.mpr short', decide_false, if_neg,
    Bool.false_eq_true, not_false_eq_true]
  exact ⟨_, rfl⟩

/-- **For every limit a run is accepted field by field, and does not fit.** -/
theorem exists_rejected {language : String}
    (known : (settings.judge.languages.get language).isSome) {maxSourceBytes : UInt64}
    (some : maxSourceBytes ≠ 0) : ∃ body : CreateRun, body.language = language ∧
      (∃ job, newRun settings maxSourceBytes.toNat body = .ok job) ∧
      ∀ nulls, ¬WithinLimit maxSourceBytes (body.json nulls) := by
  refine ⟨⟨language, stuffed maxSourceBytes.toNat, .some (stuffed maxStdinBytes), none⟩, rfl,
    newRun_ok known ?_ (length_stuffed _).le (length_stuffed _).le, fun nulls fits => ?_⟩
  · obtain ⟨n, size⟩ := Nat.exists_eq_add_one_of_ne_zero
      fun zero => some (UInt64.toNat_inj.mp zero)
    rw [size]
    exact trim_stuffed n
  · rw [WithinLimit, toNat_bodyLimit, CreateRun.length_json, escapedLength_stuffed, optionLength,
      Option.elim_some, escapedLength_stuffed] at fits
    have most : maxStdinBytes = 1048576 := rfl
    have wrapped := Nat.mod_le (2 * maxSourceBytes.toNat + 2113536) (2 ^ 64)
    omega

/-- What the body limit lets through. -/
structure BodyLimitAdmits : Prop where
  submission : ∀ maxSourceBytes (body : CreateSubmission), WithinLimit maxSourceBytes body.json ↔
    escapedLength body.problem + escapedLength body.language + escapedLength body.source + 40 ≤
      (2 * maxSourceBytes.toNat + 2113536) % 2 ^ 64
  run : ∀ maxSourceBytes nulls (body : CreateRun), WithinLimit maxSourceBytes (body.json nulls) ↔
    escapedLength body.language + escapedLength body.source + optionLength nulls 11 body.stdin +
        optionLength nulls 13 body.problem + 27 ≤
      (2 * maxSourceBytes.toNat + 2113536) % 2 ^ 64
  fewSubmission : ∀ maxSourceBytes (body : CreateSubmission), body.Admissible maxSourceBytes →
    2 * maxSourceBytes.toNat + 2113536 < 2 ^ 64 →
    longs body.problem + longs body.language + longs body.source ≤ 2000 →
    WithinLimit maxSourceBytes body.json
  fewRun : ∀ maxSourceBytes nulls (body : CreateRun), body.Admissible maxSourceBytes →
    2 * maxSourceBytes.toNat + 2113536 < 2 ^ 64 →
    longs body.language + longs body.source + body.stdin.elim 0 longs +
      body.problem.elim 0 longs ≤ 2000 →
    WithinLimit maxSourceBytes (body.json nulls)
  /-- No limit lets through all that the fields allow. -/
  rejected : ∀ (settings : Settings) language,
    (settings.judge.languages.get language).isSome → ∀ maxSourceBytes : UInt64,
    maxSourceBytes ≠ 0 → ∃ body : CreateRun, body.language = language ∧
      (∃ job, newRun settings maxSourceBytes.toNat body = .ok job) ∧
      ∀ nulls, ¬WithinLimit maxSourceBytes (body.json nulls)

/-- **A request fits exactly if its escapes leave it short enough.** -/
theorem body_limit_admits : BodyLimitAdmits where
  submission _ _ := by rw [WithinLimit, toNat_bodyLimit, CreateSubmission.length_json]
  run _ _ _ := by rw [WithinLimit, toNat_bodyLimit, CreateRun.length_json]
  fewSubmission _ _ admissible exact few := CreateSubmission.fits_of_few admissible exact few
  fewRun _ nulls _ admissible exact few := CreateRun.fits_of_few nulls admissible exact few
  rejected _ _ known _ some := exists_rejected known some

end Rejected

/-- A short program, and an input of control characters. -/
def stuffedRun : CreateRun := ⟨"python", "x", some (stuffed maxStdinBytes), none⟩

/-- It is accepted field by field, and does not fit. -/
theorem stuffedRun_rejected : letI := plainHost
    (∃ job, newRun sampleSettings 65536 stuffedRun = .ok job) ∧ stuffedRun.Admissible 65536 ∧
      ∀ nulls, ¬WithinLimit 65536 (stuffedRun.json nulls) := by
  let host : Host := plainHost
  refine ⟨newRun_ok rfl (by decide) (by decide) (length_stuffed _).le, ⟨?_, ?_, ?_, ?_⟩, ?_⟩
  · decide
  · intro text given
    have same : stuffed maxStdinBytes = text := Option.some.inj given
    rw [← same]
    exact (length_stuffed _).le
  · decide
  · rintro slug ⟨⟩
  · intro nulls fits
    have source : escapedLength "x" = 1 := by decide
    have most : maxStdinBytes = 1048576 := rfl
    rw [WithinLimit, toNat_bodyLimit, CreateRun.length_json, stuffedRun, source, optionLength,
      Option.elim_some, escapedLength_stuffed, most] at fits
    have limit : (2 * (65536 : UInt64).toNat + 2113536) % 2 ^ 64 = 2244608 := by decide
    omega

end Codexec.Server
