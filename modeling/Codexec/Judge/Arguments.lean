/-
**The command line of isolate.**

Every command is run by `isolate` with arguments that are computed from the configuration, the box
and the limits. Seconds go through an `f64`, where nothing is lost below `2 ^ 50` milliseconds
(`secs_exact`), so a command line says exactly what was asked for (`command_line_iff`).

The arguments are options, a `--` that ends them, and the program with its own arguments. Options of
one kind stand together and all have the same first six characters (`tag`), which tells the kinds
apart whatever the configuration puts into them (`segments_unique`). No option is a bare `--`
(`commandLine_splits`), and no word comes from what is judged (`submitted_text_stays_out`).
-/

import Codexec.Judge.Execution
import Codexec.Judge.Text
import Codexec.Library.Codec
import Codexec.Library.Rounding

namespace Codexec

open Codexec.Library Program

/-! ### Seconds -/

/-- `Duration::as_secs_f64`: whole seconds and nanoseconds are rounded, divided and added. -/
def asSecsF64 (ms : Nat) : ℚ :=
  let f64 := toBinary 53
  f64 (f64 (ms / 1000 : Nat) + f64 (f64 (ms % 1000 * 1000000 : Nat) / 1000000000))

/-- Three digits. -/
def padded (n : Nat) : String :=
  String.ofList [Nat.digitChar (n / 100), Nat.digitChar (n / 10 % 10), Nat.digitChar (n % 10)]

/-- `secs`: three decimals of the seconds of a duration. -/
def secs (ms : Nat) : String :=
  let thousandths := (roundEven (asSecsF64 ms * 1000)).toNat
  toString (thousandths / 1000) ++ "." ++ padded (thousandths % 1000)

/-- **The rounded seconds are as good as the exact ones.** -/
theorem asSecsF64_near {ms : Nat} (small : ms < 2 ^ 50) : |asSecsF64 ms * 1000 - ms| < 1 / 2 := by
  have whole : (0 : ℚ) ≤ (ms / 1000 : Nat) := Nat.cast_nonneg _
  have nanos : (0 : ℚ) ≤ (ms % 1000 * 1000000 : Nat) := Nat.cast_nonneg _
  have parts : ((ms / 1000 : Nat) : ℚ) * 1000 +
      ((ms % 1000 * 1000000 : Nat) : ℚ) / 1000000 = ms := by
    have split : ((ms / 1000 * 1000 + ms % 1000 : Nat) : ℚ) = ms := by
      rw [Nat.div_add_mod']
    push_cast at split ⊢
    linarith
  have bound : (ms : ℚ) < 2 ^ 50 := by exact_mod_cast small
  unfold asSecsF64
  simp only []
  generalize ((ms / 1000 : Nat) : ℚ) = s at *
  generalize ((ms % 1000 * 1000000 : Nat) : ℚ) = n at *
  have first := abs_le.mp (abs_toBinary_sub_le 53 whole)
  have second := abs_le.mp (abs_toBinary_sub_le 53 nanos)
  have sign := toBinary_nonneg 53 nanos
  have quotient := div_nonneg sign (by norm_num : (0 : ℚ) ≤ 1000000000)
  have third := abs_le.mp (abs_toBinary_sub_le 53 quotient)
  have sum := add_nonneg (toBinary_nonneg 53 whole) (toBinary_nonneg 53 quotient)
  have fourth := abs_le.mp (abs_toBinary_sub_le 53 sum)
  generalize toBinary 53 (toBinary 53 s + toBinary 53 (toBinary 53 n / 1000000000)) = v at *
  generalize toBinary 53 (toBinary 53 n / 1000000000) = q at *
  generalize toBinary 53 n = m at *
  generalize toBinary 53 s = a at *
  rw [abs_lt]
  constructor <;>
    linarith [first.1, first.2, second.1, second.2, third.1, third.2, fourth.1, fourth.2]

/-- **No millisecond is lost** below `2 ^ 50` of them. -/
theorem secs_exact {ms : Nat} (small : ms < 2 ^ 50) :
    secs ms = toString (ms / 1000) ++ "." ++ padded (ms % 1000) := by
  have rounded : roundEven (asSecsF64 ms * 1000) = (ms : ℤ) :=
    roundEven_of_near (by exact_mod_cast asSecsF64_near small)
  rw [secs, rounded, Int.toNat_natCast]

theorem digitChar_injective {d e : Nat} (digit : d < 10) (digit' : e < 10)
    (same : Nat.digitChar d = Nat.digitChar e) : d = e := by
  have codes := congrArg Char.toNat same
  rw [Nat.toNat_digitChar_of_lt_ten digit, Nat.toNat_digitChar_of_lt_ten digit'] at codes
  omega

theorem padded_injective {n m : Nat} (three : n < 1000) (three' : m < 1000)
    (same : padded n = padded m) : n = m := by
  have lists := String.ofList_injective same
  simp only [List.cons.injEq, and_true] at lists
  have hundreds := digitChar_injective (by omega) (by omega) lists.1
  have tens := digitChar_injective (by omega) (by omega) lists.2.1
  have ones := digitChar_injective (by omega) (by omega) lists.2.2
  omega

/-- **The text of a duration gives it back.** -/
theorem secs_injective {ms ms' : Nat} (small : ms < 2 ^ 50) (small' : ms' < 2 ^ 50)
    (same : secs ms = secs ms') : ms = ms' := by
  rw [secs_exact small, secs_exact small'] at same
  have lists := congrArg String.toList same
  simp only [String.toList_append, padded, String.toList_ofList] at lists
  obtain ⟨before, after⟩ := List.append_inj' lists rfl
  have whole := toString_injective (String.toList_inj.mp (List.append_inj' before rfl).1)
  have rest := padded_injective (by omega) (by omega) (congrArg String.ofList after)
  omega

/-! ### Commands -/

/-- The fields of `IsolateConfig` that command lines read. -/
structure IsolateCommand where
  useCgroups : Bool := true
  /-- Host-only directory for meta files. -/
  metaDir : String
  /-- Bind mounts added to every execution. -/
  extraDirs : List String := []

/-- `meta_path`: a file of the directory for each box. -/
def IsolateCommand.metaPath (self : IsolateCommand) (id : UInt32) : String :=
  let name := "box-" ++ toString id.toNat ++ ".meta"
  if self.metaDir = "" then name
  else if self.metaDir.endsWith "/" then self.metaDir ++ name
  else self.metaDir ++ "/" ++ name

/-- `base_command`, without the path of the binary. -/
def IsolateCommand.baseCommand (self : IsolateCommand) (id : UInt32) : List String :=
  (if self.useCgroups then ["--cg"] else []) ++ ["--box-id=" ++ toString id.toNat]

/-- An option with a number. -/
def numbered (name : String) (value : Nat) : String := name ++ toString value

section Options

variable (self : IsolateCommand) (spec : ExecSpec)

/-- `--cg-mem`, or `--mem` where the address space may be limited. -/
def memoryOptions : List String :=
  if self.useCgroups then [numbered "--cg-mem=" spec.limits.memoryKb.toNat]
  else if spec.limits.addressSpaceLimit then [numbered "--mem=" spec.limits.memoryKb.toNat]
  else []

def syscallOptions : List String :=
  spec.syscallFlags.toList.map (numbered "--syscalls=")

def stderrOptions : List String := if spec.stderrToStdout then ["--stderr-to-stdout"] else []

def dirOptions : List String := (self.extraDirs ++ spec.dirs).map ("--dir=" ++ ·)

def envOptions : List String := spec.env.map fun entry => "--env=" ++ (entry.1 ++ "=" ++ entry.2)

/-- The options that may be missing or repeated. -/
def furtherOptions : List (List String) :=
  [memoryOptions self spec, syscallOptions spec, stderrOptions spec, dirOptions self spec,
    envOptions spec]

/-- `build_run_args` -/
def buildRunArgs (metaPath : String) : List String :=
  ["--silent", "--meta=" ++ metaPath, "--time=" ++ secs spec.limits.cpuTime,
      "--extra-time=" ++ secs spec.limits.extraTime, "--wall-time=" ++ secs spec.limits.wallTime,
      numbered "--processes=" (max spec.limits.processes 1),
      numbered "--fsize=" spec.limits.fileSizeKb.toNat] ++
    ((furtherOptions self spec).flatten ++ "--run" :: "--" :: spec.argv)

/-- The arguments of `isolate` for a command. -/
def commandLine (id : UInt32) : List String :=
  self.baseCommand id ++ buildRunArgs self spec (self.metaPath id)

end Options

/-! ### Reading a command line back -/

section Reading

variable {self : IsolateCommand} {spec spec' : ExecSpec}

theorem prefixed_injective (name : String) : Function.Injective (name ++ ·) := by
  intro value value' same
  have lists := congrArg String.toList same
  simp only [String.toList_append] at lists
  exact String.toList_inj.mp (List.append_cancel_left lists)

theorem numbered_injective (name : String) : Function.Injective (numbered name) := by
  intro n m same
  exact toString_injective (prefixed_injective name same)

/-- The first six characters, where the kinds of the further options differ. -/
def tag (option : String) : List Char := option.toList.take 6

theorem tag_append {name : String} (six : 6 ≤ name.toList.length) (value : String) :
    tag (name ++ value) = tag name := by
  rw [tag, String.toList_append, List.take_append_of_le_length six, tag]

/-- The kinds of the further options. -/
def furtherKinds (self : IsolateCommand) : List (List Char) :=
  [tag (if self.useCgroups then "--cg-mem=" else "--mem="), tag "--syscalls=",
    tag "--stderr-to-stdout", tag "--dir=", tag "--env="]

theorem furtherOptions_kinds (self : IsolateCommand) (spec : ExecSpec) :
    Kinds tag (furtherOptions self spec) (furtherKinds self) := by
  refine .cons ?memory (.cons ?syscalls (.cons ?stderr (.cons ?dirs (.cons ?env .nil))))
  case memory =>
    intro option inside
    unfold memoryOptions at inside
    split at inside
    · next cgroups =>
      rw [List.mem_singleton.mp inside, if_pos cgroups, numbered, tag_append (by decide)]
    · next rlimits =>
      split at inside
      · rw [List.mem_singleton.mp inside, if_neg rlimits, numbered, tag_append (by decide)]
      · exact absurd inside List.not_mem_nil
  case syscalls =>
    intro option inside
    obtain ⟨flags, -, rfl⟩ := List.mem_map.mp inside
    exact tag_append (by decide) _
  case stderr =>
    intro option inside
    unfold stderrOptions at inside
    split at inside
    · rw [List.mem_singleton.mp inside]
    · exact absurd inside List.not_mem_nil
  case dirs =>
    intro option inside
    obtain ⟨dir, -, rfl⟩ := List.mem_map.mp inside
    exact tag_append (by decide) _
  case env =>
    intro option inside
    obtain ⟨entry, -, rfl⟩ := List.mem_map.mp inside
    exact tag_append (by decide) _

theorem furtherKinds_nodup (self : IsolateCommand) :
    (furtherKinds self).Nodup ∧ tag "--run" ∉ furtherKinds self := by
  unfold furtherKinds
  cases self.useCgroups <;> decide

/-- What a command line asks `isolate` for. -/
structure Orders where
  cpuTime : Nat
  extraTime : Nat
  wallTime : Nat
  processes : Nat
  fileSizeKb : UInt64
  /-- Nothing is asked where the memory is not limited. -/
  memoryKb : Option UInt64
  syscallFlags : Option Nat
  stderrToStdout : Bool
  dirs : List String
  /-- As `isolate` reads them: name and value joined by `=`. -/
  env : List String
  argv : List String
  deriving DecidableEq, Repr

/-- The orders of a command. -/
def IsolateCommand.orders (self : IsolateCommand) (spec : ExecSpec) : Orders where
  cpuTime := spec.limits.cpuTime
  extraTime := spec.limits.extraTime
  wallTime := spec.limits.wallTime
  processes := max spec.limits.processes 1
  fileSizeKb := spec.limits.fileSizeKb
  memoryKb :=
    if self.useCgroups || spec.limits.addressSpaceLimit then some spec.limits.memoryKb else none
  syscallFlags := spec.syscallFlags
  stderrToStdout := spec.stderrToStdout
  dirs := spec.dirs
  env := spec.env.map fun entry => entry.1 ++ "=" ++ entry.2
  argv := spec.argv

/-- Durations whose milliseconds are all written out. -/
structure ExecLimits.Exact (limits : ExecLimits) : Prop where
  cpuTime : limits.cpuTime < 2 ^ 50
  extraTime : limits.extraTime < 2 ^ 50
  wallTime : limits.wallTime < 2 ^ 50

theorem memoryOptions_inj :
    memoryOptions self spec = memoryOptions self spec' ↔
      (self.orders spec).memoryKb = (self.orders spec').memoryKb := by
  have sameNumber (name : String) : numbered name spec.limits.memoryKb.toNat =
      numbered name spec'.limits.memoryKb.toNat ↔
        spec.limits.memoryKb = spec'.limits.memoryKb := by
    rw [(numbered_injective name).eq_iff, UInt64.toNat_inj]
  unfold memoryOptions IsolateCommand.orders
  cases self.useCgroups <;> cases spec.limits.addressSpaceLimit <;>
    cases spec'.limits.addressSpaceLimit <;> simp [sameNumber]

theorem syscallOptions_inj :
    syscallOptions spec = syscallOptions spec' ↔ spec.syscallFlags = spec'.syscallFlags := by
  have sameNumber (n m : Nat) : numbered "--syscalls=" n = numbered "--syscalls=" m ↔ n = m :=
    (numbered_injective _).eq_iff
  unfold syscallOptions
  cases spec.syscallFlags <;> cases spec'.syscallFlags <;> simp [sameNumber]

theorem stderrOptions_inj :
    stderrOptions spec = stderrOptions spec' ↔ spec.stderrToStdout = spec'.stderrToStdout := by
  unfold stderrOptions
  cases spec.stderrToStdout <;> cases spec'.stderrToStdout <;> simp

theorem dirOptions_inj : dirOptions self spec = dirOptions self spec' ↔ spec.dirs = spec'.dirs := by
  unfold dirOptions
  rw [(List.map_injective_iff.mpr (prefixed_injective _)).eq_iff, List.append_cancel_left_eq]

theorem envOptions_inj :
    envOptions spec = envOptions spec' ↔
      (self.orders spec).env = (self.orders spec').env := by
  have joined (spec : ExecSpec) :
      envOptions spec = ((self.orders spec).env).map ("--env=" ++ ·) := by
    rw [IsolateCommand.orders, List.map_map]
    rfl
  rw [joined, joined, (List.map_injective_iff.mpr (prefixed_injective _)).eq_iff]

/-- The options stand apart, and so does the program. -/
theorem buildRunArgs_inj {metaPath metaPath' : String} :
    buildRunArgs self spec metaPath = buildRunArgs self spec' metaPath' ↔
      metaPath = metaPath' ∧ secs spec.limits.cpuTime = secs spec'.limits.cpuTime ∧
      secs spec.limits.extraTime = secs spec'.limits.extraTime ∧
      secs spec.limits.wallTime = secs spec'.limits.wallTime ∧
      max spec.limits.processes 1 = max spec'.limits.processes 1 ∧
      spec.limits.fileSizeKb = spec'.limits.fileSizeKb ∧
      furtherOptions self spec = furtherOptions self spec' ∧ spec.argv = spec'.argv := by
  have further : (furtherOptions self spec).flatten ++ "--run" :: "--" :: spec.argv =
      (furtherOptions self spec').flatten ++ "--run" :: "--" :: spec'.argv ↔
        furtherOptions self spec = furtherOptions self spec' ∧ spec.argv = spec'.argv := by
    constructor
    · intro same
      have apart := furtherKinds_nodup self
      obtain ⟨options, program⟩ := segments_unique (furtherOptions_kinds self spec)
        (furtherOptions_kinds self spec') apart.1 apart.2 apart.2 same
      exact ⟨options, by simpa using program⟩
    · rintro ⟨options, program⟩
      rw [options, program]
  unfold buildRunArgs
  simp only [List.cons_append, List.nil_append, List.cons.injEq, true_and, further,
    (prefixed_injective _).eq_iff, (numbered_injective _).eq_iff, UInt64.toNat_inj]

theorem furtherOptions_inj :
    furtherOptions self spec = furtherOptions self spec' ↔
      (self.orders spec).memoryKb = (self.orders spec').memoryKb ∧
      spec.syscallFlags = spec'.syscallFlags ∧ spec.stderrToStdout = spec'.stderrToStdout ∧
      spec.dirs = spec'.dirs ∧ (self.orders spec).env = (self.orders spec').env := by
  unfold furtherOptions
  simp only [List.cons.injEq, and_true, memoryOptions_inj, syscallOptions_inj, stderrOptions_inj,
    dirOptions_inj]
  rw [@envOptions_inj self]

variable {id id' : UInt32}

theorem metaPath_injective (self : IsolateCommand) : Function.Injective self.metaPath := by
  intro id id' same
  have joined (folder : String) (name name' : String) :
      folder ++ name = folder ++ name' ↔ name = name' := (prefixed_injective folder).eq_iff
  have names : "box-" ++ toString id.toNat ++ ".meta" =
      "box-" ++ toString id'.toNat ++ ".meta" := by
    unfold IsolateCommand.metaPath at same
    split at same
    · exact same
    · split at same
      · exact (joined _ _ _).mp same
      · exact (joined _ _ _).mp same
  have lists := congrArg String.toList names
  simp only [String.toList_append] at lists
  have numbers := String.toList_inj.mp (List.append_cancel_left (List.append_cancel_right lists))
  exact UInt32.toNat_inj.mp (toString_injective numbers)

/-- The box of a command line is the one it was made for. -/
theorem commandLine_inj :
    commandLine self spec id = commandLine self spec' id' ↔
      id = id' ∧ buildRunArgs self spec (self.metaPath id) =
        buildRunArgs self spec' (self.metaPath id') := by
  have box : "--box-id=" ++ toString id.toNat = "--box-id=" ++ toString id'.toNat ↔ id = id' :=
    ((numbered_injective "--box-id=").eq_iff).trans UInt32.toNat_inj
  unfold commandLine IsolateCommand.baseCommand
  cases self.useCgroups <;> simp only [if_true, Bool.false_eq_true, if_false, List.cons_append,
    List.nil_append, List.cons.injEq, true_and, box]

/-- **A command line says exactly what was asked for**: two are the same exactly when the box, the
limits, the flags, the mounts, the environment and the program are. -/
theorem command_line_iff (exact : spec.limits.Exact) (exact' : spec'.limits.Exact) :
    commandLine self spec id = commandLine self spec' id' ↔
      id = id' ∧ self.orders spec = self.orders spec' := by
  have seconds {ms ms' : Nat} (small : ms < 2 ^ 50) (small' : ms' < 2 ^ 50) :
      secs ms = secs ms' ↔ ms = ms' := ⟨secs_injective small small', congrArg secs⟩
  rw [commandLine_inj, buildRunArgs_inj, seconds exact.cpuTime exact'.cpuTime,
    seconds exact.extraTime exact'.extraTime, seconds exact.wallTime exact'.wallTime,
    furtherOptions_inj, (metaPath_injective self).eq_iff]
  simp only [IsolateCommand.orders, Orders.mk.injEq]
  tauto

end Reading

/-- The development mode, with a mount of its own. -/
def rlimits : IsolateCommand where
  useCgroups := false
  metaDir := "/m"
  extraDirs := ["/etc/alternatives"]

/-- The command of the unit tests. -/
def sampleCommand : ExecSpec where
  argv := ["./main", "arg"]
  env := [("GOMAXPROCS", "1")]
  dirs := ["/gocache=/var/cache/go"]
  limits := ⟨1500, 500, 4000, 262144, 64, 65536, 1024, 1024, true⟩
  stderrToStdout := false
  syscallFlags := some 65531

/-- Without its mount it is another command line. -/
theorem command_line_iff_sample :
    commandLine rlimits sampleCommand 0 ≠
      commandLine rlimits { sampleCommand with dirs := [] } 0 := by
  intro same
  have exact : sampleCommand.limits.Exact := ⟨by decide, by decide, by decide⟩
  have exact' : { sampleCommand with dirs := [] }.limits.Exact := exact
  exact absurd ((command_line_iff exact exact').mp same).2 (by decide)

example : commandLine rlimits sampleCommand 0 =
    ["--box-id=0", "--silent", "--meta=/m/box-0.meta", "--time=1.500", "--extra-time=0.500",
      "--wall-time=4.000", "--processes=64", "--fsize=65536", "--mem=262144", "--syscalls=65531",
      "--dir=/etc/alternatives", "--dir=/gocache=/var/cache/go", "--env=GOMAXPROCS=1", "--run",
      "--", "./main", "arg"] := by
  decide +kernel

/-! ### Where the program stands -/

/-- An option, and not the end of the options. -/
def IsOption (word : String) : Prop := word.toList.take 2 = ['-', '-'] ∧ word ≠ "--"

theorem IsOption.append {name : String} (option : IsOption name) (value : String) :
    IsOption (name ++ value) := by
  obtain ⟨dashes, more⟩ := option
  have long : 2 ≤ name.toList.length := by
    have two := congrArg List.length dashes
    rw [List.length_take, List.length_cons, List.length_singleton] at two
    omega
  constructor
  · rw [String.toList_append, List.take_append_of_le_length long, dashes]
  · intro same
    apply more
    have lists := congrArg String.toList same
    rw [String.toList_append] at lists
    have whole := congrArg List.length lists
    rw [List.length_append] at whole
    have none : value.toList = [] := List.length_eq_zero_iff.mp (by simp at whole; omega)
    rw [none, List.append_nil] at lists
    exact String.toList_inj.mp lists


theorem furtherOptions_options (self : IsolateCommand) (spec : ExecSpec) :
    ∀ option ∈ (furtherOptions self spec).flatten, IsOption option := by
  intro option inside
  have dashes : ∀ name ∈ furtherKinds self, name.take 2 = ['-', '-'] ∧ name ≠ ['-', '-'] := by
    unfold furtherKinds
    cases self.useCgroups <;> decide
  obtain ⟨segment, here, there⟩ := List.mem_flatten.mp inside
  obtain ⟨index, bound, rfl⟩ := List.getElem_of_mem here
  have proper := furtherOptions_kinds self spec
  have kind := (List.forall₂_iff_get.mp proper).2 index bound (proper.length_eq ▸ bound) _ there
  have known : tag option ∈ furtherKinds self := by
    rw [kind]
    exact List.get_mem _ _
  obtain ⟨two, more⟩ := dashes _ known
  constructor
  · rw [tag, List.take_take] at two
    exact two
  · rintro rfl
    exact more rfl

/-- **Whatever the configuration says, the first `--` ends the options** and the program stands
behind it. -/
theorem commandLine_splits (self : IsolateCommand) (spec : ExecSpec) (id : UInt32) :
    ∃ options, commandLine self spec id = options ++ "--" :: spec.argv ∧
      ∀ option ∈ options, IsOption option := by
  have named (name value : String) (dashes : IsOption name) : IsOption (name ++ value) :=
    dashes.append value
  refine ⟨self.baseCommand id ++ (["--silent", "--meta=" ++ self.metaPath id,
      "--time=" ++ secs spec.limits.cpuTime, "--extra-time=" ++ secs spec.limits.extraTime,
      "--wall-time=" ++ secs spec.limits.wallTime,
      numbered "--processes=" (max spec.limits.processes 1),
      numbered "--fsize=" spec.limits.fileSizeKb.toNat] ++
    ((furtherOptions self spec).flatten ++ ["--run"])), ?_, ?_⟩
  · simp [commandLine, buildRunArgs]
  · intro option inside
    rcases List.mem_append.mp inside with base | inside
    · unfold IsolateCommand.baseCommand at base
      rcases List.mem_append.mp base with cgroups | box
      · split at cgroups
        · rw [List.mem_singleton.mp cgroups]
          exact ⟨by decide, by decide⟩
        · exact absurd cgroups List.not_mem_nil
      · rw [List.mem_singleton.mp box]
        exact named _ _ ⟨by decide, by decide⟩
    · rcases List.mem_append.mp inside with fixed | inside
      · simp only [List.mem_cons, List.not_mem_nil, or_false] at fixed
        rcases fixed with rfl | rfl | rfl | rfl | rfl | rfl | rfl
        · exact ⟨by decide, by decide⟩
        all_goals exact named _ _ ⟨by decide, by decide⟩
      · rcases List.mem_append.mp inside with further | run
        · exact furtherOptions_options self spec option further
        · rw [List.mem_singleton.mp run]
          exact ⟨by decide, by decide⟩

/-- The words of a command line that are not options. -/
theorem program_of_commandLine (self : IsolateCommand) (spec : ExecSpec) (id : UInt32) :
    (commandLine self spec id).dropWhile (fun word => decide (word ≠ "--")) =
      "--" :: spec.argv := by
  obtain ⟨options, same, all⟩ := commandLine_splits self spec id
  rw [same, List.dropWhile_append_of_pos fun option inside =>
    decide_eq_true (all option inside).2]
  rfl

variable [Host]

/-- **Nothing that is submitted reaches a command line.** For a language and its limits there are
at most two command lines for a box, with the programs of the registry; whatever is judged, every
command is one of them, and its input is empty or that of a test. -/
theorem submitted_text_stays_out (self : Judge) (isolate : IsolateCommand) (language : String)
    (timeLimitMs memoryLimitKb : UInt64) :
    ∃ lines : UInt32 → List (List String), ∀ id,
      (lines id).length ≤ 2 ∧
      (∀ line ∈ lines id, ∃ lang step, self.languages.get language = some lang ∧
        (lang.compile = some step ∨ lang.run = step) ∧
        line.dropWhile (fun word => decide (word ≠ "--")) = "--" :: step.argv) ∧
      ∀ (req : JudgeRequest) (progress : Bool) (transcript : List (Exchange Call.Answer))
        (left : JudgeM (Except JudgeError JudgeResult)) (spec : ExecSpec) (stdin : Bytes)
        (answer : Except SandboxError ExecOutcome), req.language = language →
        req.timeLimitMs = timeLimitMs → req.memoryLimitKb = memoryLimitKb →
        Follows (self.judge req progress) transcript left →
        ⟨.exec spec stdin, answer⟩ ∈ transcript →
        commandLine isolate spec id ∈ lines id ∧
          (stdin = [] ∨ ∃ test ∈ req.tests, stdin = test.input) := by
  cases known : self.languages.get language with
  | none =>
    refine ⟨fun _ => [], fun id => ⟨Nat.zero_le 2, nofun, ?_⟩⟩
    intro req progress transcript left spec stdin answer rfl rfl rfl follows inside
    rw [self.judge_of_unknown req progress known] at follows
    rw [(Follows.of_pure follows).1] at inside
    exact absurd inside List.not_mem_nil
  | some lang =>
    let bare : JudgeRequest :=
      ⟨language, "", [], timeLimitMs, memoryLimitKb, .lines, false, false, false⟩
    refine ⟨fun id => lang.compile.toList.map (fun step =>
      commandLine isolate (self.compileSpec lang step) id) ++
        [commandLine isolate (self.runSpec lang bare) id], fun id => ⟨?_, ?_, ?_⟩⟩
    · cases lang.compile <;> simp
    · intro line inside
      rcases List.mem_append.mp inside with compile | run
      · obtain ⟨step, found, rfl⟩ := List.mem_map.mp compile
        exact ⟨lang, step, rfl, Or.inl (Option.mem_toList.mp found), program_of_commandLine _ _ _⟩
      · rw [List.mem_singleton.mp run]
        exact ⟨lang, lang.run, rfl, Or.inr rfl, program_of_commandLine _ _ _⟩
    · intro req progress transcript left spec stdin answer rfl rfl rfl follows inside
      have all : AllCalls (Judge.Executes self lang req) (self.judge req progress) :=
        Judge.judge_allCalls known
      rcases (all.of_follows follows).1 _ inside with
        ⟨step, found, rfl, rfl⟩ | ⟨test, own, rfl, rfl⟩
      · refine ⟨List.mem_append_left _ (List.mem_map.mpr ⟨step, ?_, rfl⟩), Or.inl rfl⟩
        exact Option.mem_toList.mpr found
      · exact ⟨List.mem_append_right _ (List.mem_singleton.mpr rfl), Or.inr ⟨test, own, rfl⟩⟩

end Codexec
