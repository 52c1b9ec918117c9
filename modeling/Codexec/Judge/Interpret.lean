/-
**What `interpret` accepts.**

isolate exits with 0 when the program ran and succeeded, with 1 when the program failed, and with
anything else when the sandbox itself broke. `interpret` tells the last case from the first two, but
not these from each other: it looks for a failure in the meta file alone. A meta file with entries
and without a status is a success after either code.
-/

import Codexec.Judge.Isolate

namespace Codexec

namespace Meta

/-- The meta file of a success: it has entries, but no status, no mark of the out-of-memory killer
and no memory above the limit. -/
structure Clean (entries : Meta) (limits : ExecLimits) : Prop where
  reported : entries ≠ []
  noStatus : entries.get "status" = none
  notKilled : entries.get "cg-oom-killed" = none
  memory : entries.memoryKb ≤ limits.memoryKb

/-- The run is taken for one that ran out of memory, unless it ran out of time. -/
def OutOfMemory (entries : Meta) (limits : ExecLimits) (useCgroups : Bool) : Prop :=
  (entries.get "cg-oom-killed").isSome ∨ limits.memoryKb < entries.memoryKb ∨
    useCgroups = false ∧ (entries.get "status").isSome ∧
      saturatingMul limits.memoryKb 9 ≤ saturatingMul entries.memoryKb 10

/-- isolate did not break, and has reported on the run. -/
structure Answered (entries : Meta) (exitCode : Option Int) : Prop where
  exited : exitCode = some 0 ∨ exitCode = some 1
  intact : entries.get "status" ≠ some "XX"
  reported : entries ≠ []

/-- The arms that classify a run isolate has reported, in their order. -/
inductive Classified (entries : Meta) (limits : ExecLimits) (useCgroups truncated : Bool) :
    Except String ExecStatus → Prop
  | outOfTime {status : ExecStatus} (timedOut : entries.get "status" = some "TO")
      (kind : status = .timeLimit ∨ status = .wallTimeLimit) :
      Classified entries limits useCgroups truncated (.ok status)
  | outOfMemory (inTime : entries.get "status" ≠ some "TO")
      (oom : entries.OutOfMemory limits useCgroups) :
      Classified entries limits useCgroups truncated (.ok .memoryLimit)
  | signaled (signal : Int) (killed : entries.get "status" = some "SG")
      (fits : ¬ entries.OutOfMemory limits useCgroups) :
      Classified entries limits useCgroups truncated (.ok (.signaled signal))
  | nonZeroExit (code : Int) (failed : entries.get "status" = some "RE")
      (fits : ¬ entries.OutOfMemory limits useCgroups) :
      Classified entries limits useCgroups truncated (.ok (.nonZeroExit code))
  | unknown {other msg : String} (status : entries.get "status" = some other)
      (unheard : other ∉ ["TO", "SG", "RE"]) (fits : ¬ entries.OutOfMemory limits useCgroups) :
      Classified entries limits useCgroups truncated (.error msg)
  | outputLimit (noStatus : entries.get "status" = none)
      (fits : ¬ entries.OutOfMemory limits useCgroups) (cut : truncated = true) :
      Classified entries limits useCgroups truncated (.ok .outputLimit)
  | success (noStatus : entries.get "status" = none)
      (fits : ¬ entries.OutOfMemory limits useCgroups) (whole : truncated = false) :
      Classified entries limits useCgroups truncated (.ok .ok)

variable {entries : Meta} {limits : ExecLimits} {useCgroups : Bool}

/-- Without a status, the control group does not matter for the memory. -/
theorem outOfMemory_of_unmarked (noStatus : entries.get "status" = none) :
    entries.OutOfMemory limits useCgroups ↔
      (entries.get "cg-oom-killed").isSome ∨ limits.memoryKb < entries.memoryKb := by
  simp [OutOfMemory, noStatus]

theorem clean_iff (useCgroups : Bool) : entries.Clean limits ↔
    entries ≠ [] ∧ entries.get "status" = none ∧ ¬ entries.OutOfMemory limits useCgroups := by
  constructor
  · rintro ⟨reported, noStatus, notKilled, memory⟩
    refine ⟨reported, noStatus, ?_⟩
    rw [outOfMemory_of_unmarked noStatus, notKilled]
    rintro (killed | above)
    · cases killed
    · exact UInt64.not_lt.mpr memory above
  · rintro ⟨reported, noStatus, fits⟩
    rw [outOfMemory_of_unmarked noStatus, not_or] at fits
    exact ⟨reported, noStatus, by simpa using fits.1, UInt64.not_lt.mp fits.2⟩

end Meta

section

variable [Host] {entries : Meta} {exitCode : Option Int} {limits : ExecLimits}
  {useCgroups truncated : Bool}

/-- isolate itself broke, or has reported nothing. -/
theorem interpret_refused (limits : ExecLimits) (useCgroups truncated : Bool)
    (refused : ¬ entries.Answered exitCode) :
    ∃ msg, interpret entries exitCode limits useCgroups truncated = .error msg := by
  unfold interpret
  by_cases answered : (exitCode = some 0 ∨ exitCode = some 1) ∧ entries.get "status" ≠ some "XX"
  · have missing : entries.isEmpty = true := by
      rw [List.isEmpty_iff]
      by_contra reported
      exact refused ⟨answered.1, answered.2, reported⟩
    exact ⟨_, (if_neg (not_not.mpr answered)).trans (if_pos missing)⟩
  · exact ⟨_, if_pos answered⟩

theorem interpret_classified (limits : ExecLimits) (useCgroups truncated : Bool)
    (answered : entries.Answered exitCode) :
    ∃ status, entries.Classified limits useCgroups truncated status ∧
      interpret entries exitCode limits useCgroups truncated =
        status.map fun status =>
          (status, entries.ms "time", entries.ms "time-wall", entries.memoryKb) := by
  obtain ⟨exited, intact, reported⟩ := answered
  have entered : entries.isEmpty = false := by simpa using reported
  have oom : (((entries.get "cg-oom-killed").isSome ||
      decide (entries.memoryKb > limits.memoryKb) ||
      (!useCgroups && (entries.get "status").isSome &&
        decide (saturatingMul entries.memoryKb 10 ≥ saturatingMul limits.memoryKb 9))) = true) ↔
      entries.OutOfMemory limits useCgroups := by
    simp [Meta.OutOfMemory, or_assoc, and_assoc]
  unfold interpret
  rw [if_neg (not_not.mpr ⟨exited, intact⟩), entered, if_neg Bool.false_ne_true]
  refine ⟨_, ?_, rfl⟩
  by_cases timedOut : entries.get "status" = some "TO"
  · rw [if_pos timedOut]
    refine .outOfTime timedOut ?_
    split
    · exact .inr rfl
    · exact .inl rfl
  rw [if_neg timedOut]
  by_cases full : entries.OutOfMemory limits useCgroups
  · rw [if_pos (oom.mpr full)]
    exact .outOfMemory timedOut full
  rw [if_neg (mt oom.mp full)]
  split
  · exact .signaled _ ‹_› full
  · exact .nonZeroExit _ ‹_› full
  · rename_i other notSignaled notExited status
    refine .unknown status ?_ full
    rintro (_ | ⟨_, _ | ⟨_, _ | ⟨_, inside⟩⟩⟩)
    · exact timedOut status
    · exact notSignaled rfl
    · exact notExited rfl
    · cases inside
  · cases truncated
    · exact .success ‹_› full rfl
    · exact .outputLimit ‹_› full rfl

/-- **Either exit code counts as a success**, if the meta file is that of one. -/
theorem interpret_ok_iff :
    (∃ usage, interpret entries exitCode limits useCgroups truncated = .ok (.ok, usage)) ↔
      (exitCode = some 0 ∨ exitCode = some 1) ∧ entries.Clean limits ∧ truncated = false := by
  constructor
  · rintro ⟨usage, succeeds⟩
    have answered : entries.Answered exitCode := by
      by_contra refused
      obtain ⟨msg, broken⟩ := interpret_refused limits useCgroups truncated refused
      rw [broken] at succeeds
      cases succeeds
    obtain ⟨status, classified, same⟩ := interpret_classified limits useCgroups truncated
      answered
    rw [same] at succeeds
    cases classified with
    | success noStatus fits whole =>
      have clean := (Meta.clean_iff useCgroups).mpr ⟨answered.reported, noStatus, fits⟩
      exact ⟨answered.exited, clean, whole⟩
    | outOfTime _ kind =>
      obtain rfl | rfl := kind
      · cases succeeds
      · cases succeeds
    | _ => cases succeeds
  · rintro ⟨exited, clean, whole⟩
    obtain ⟨reported, noStatus, fits⟩ := (Meta.clean_iff useCgroups).mp clean
    have intact : entries.get "status" ≠ some "XX" := by
      rw [noStatus]
      exact Option.some_ne_none _ ∘ Eq.symm
    obtain ⟨status, classified, same⟩ := interpret_classified limits useCgroups truncated
      ⟨exited, intact, reported⟩
    rw [same]
    cases classified with
    | success => exact ⟨_, rfl⟩
    | outOfTime timedOut => cases noStatus.symm.trans timedOut
    | outOfMemory _ oom => exact absurd oom fits
    | signaled _ killed => cases noStatus.symm.trans killed
    | nonZeroExit _ failed => cases noStatus.symm.trans failed
    | unknown status => cases noStatus.symm.trans status
    | outputLimit _ _ cut => cases whole.symm.trans cut

/-- A status that isolate does not give a program is no verdict on the program. -/
theorem interpret_unknown {status : String} (unknown : entries.get "status" = some status)
    (unheard : status ∉ ["TO", "SG", "RE"]) (fits : ¬ entries.OutOfMemory limits useCgroups) :
    ∃ msg, interpret entries exitCode limits useCgroups truncated = .error msg := by
  by_cases answered : entries.Answered exitCode
  · obtain ⟨result, classified, same⟩ := interpret_classified limits useCgroups truncated
      answered
    rw [same]
    have told {other : String} (status : entries.get "status" = some other) :
        other ∉ ["TO", "SG", "RE"] := by
      rw [unknown] at status
      cases status
      exact unheard
    cases classified with
    | unknown => exact ⟨_, rfl⟩
    | outOfTime timedOut => exact absurd (by simp) (told timedOut)
    | outOfMemory _ oom => exact absurd oom fits
    | signaled _ killed => exact absurd (by simp) (told killed)
    | nonZeroExit _ failed => exact absurd (by simp) (told failed)
    | outputLimit noStatus => cases unknown.symm.trans noStatus
    | success noStatus => cases unknown.symm.trans noStatus
  · exact interpret_refused _ _ _ answered

/-- Only a reported success counts as success, and what says nothing about the program is no status
of it. -/
structure OnlyReported (entries : Meta) (exitCode : Option Int) (limits : ExecLimits)
    (useCgroups truncated : Bool) : Prop where
  success : (∃ usage, interpret entries exitCode limits useCgroups truncated = .ok (.ok, usage)) ↔
    exitCode = some 0 ∧ entries.Clean limits ∧ truncated = false
  failure : (exitCode ≠ some 0 ∧ exitCode ≠ some 1) ∨ entries.get "status" = some "XX" ∨
      (∃ status, entries.get "status" = some status ∧ status ∉ ["TO", "SG", "RE"] ∧
        ¬ entries.OutOfMemory limits useCgroups) ∨ entries = [] →
    ∃ msg, interpret entries exitCode limits useCgroups truncated = .error msg
  failed : exitCode = some 1 →
    ¬ ∃ usage, interpret entries exitCode limits useCgroups truncated = .ok (.ok, usage)

end

/-- **Only a reported success counts as success, unless isolate says that the program failed and the
meta file does not.** -/
theorem success_is_reported_iff [Host] (entries : Meta) (exitCode : Option Int)
    (limits : ExecLimits) (useCgroups truncated : Bool) :
    OnlyReported entries exitCode limits useCgroups truncated ↔
      ¬ (exitCode = some 1 ∧ entries.Clean limits ∧ truncated = false) := by
  constructor
  · rintro only ⟨failed, clean, whole⟩
    exact only.failed failed (interpret_ok_iff.mpr ⟨.inr failed, clean, whole⟩)
  · intro reported
    refine ⟨?_, ?_, ?_⟩
    · rw [interpret_ok_iff]
      constructor
      · rintro ⟨exited, clean, whole⟩
        exact ⟨exited.resolve_right fun failed => reported ⟨failed, clean, whole⟩, clean, whole⟩
      · rintro ⟨succeeded, clean, whole⟩
        exact ⟨.inl succeeded, clean, whole⟩
    · rintro (⟨notZero, notOne⟩ | broken | ⟨status, unknown, unheard, fits⟩ | missing)
      · exact interpret_refused _ _ _ fun answered => answered.exited.elim notZero notOne
      · exact interpret_refused _ _ _ fun answered => answered.intact broken
      · exact interpret_unknown unknown unheard fits
      · exact interpret_refused _ _ _ fun answered => answered.reported missing
    · intro failed succeeds
      obtain ⟨-, clean, whole⟩ := interpret_ok_iff.mp succeeds
      exact reported ⟨failed, clean, whole⟩

/-- A meta file cut off before its status, beside the exit code of a failure. -/
theorem failure_counts_as_success :
    letI := plainHost
    ¬ OnlyReported [("time", "0.1")] (some 1) ⟨1500, 500, 4000, 262144, 64, 65536, 1024, 1024, true⟩
      true false := by
  let _ := plainHost
  intro only
  refine only.failed rfl (interpret_ok_iff.mpr ⟨.inr rfl, ?_, rfl⟩)
  exact ⟨by simp, by decide, by decide, by decide⟩

end Codexec
