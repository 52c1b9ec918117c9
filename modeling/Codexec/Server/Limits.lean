/-
**Limits that wrap.**

Four products and sums of the configuration are computed without a check: the memory limit in
kilobytes, the wall-clock limit, the lease in milliseconds and the end of the range of box ids. The
loaders reject zero and accept any large value. Each computation is exact up to a bound of its own
(`memory_exact_iff`, `wall_exact_iff`, `lease_exact_iff`, `pool_exact_iff`); above it a large limit
becomes a small one (`limits_wrap`).
-/

import Codexec.Judge.Loading
import Codexec.Judge.Pool
import Codexec.Judge.Collision
import Codexec.Server.System

namespace Codexec

/-! ### The memory limit -/

theorem memory_exact_iff (mb : UInt64) :
    (mb * 1024).toNat = 1024 * mb.toNat ↔ mb.toNat < 2 ^ 54 := by
  rw [UInt64.toNat_mul]
  show mb.toNat * 1024 % 2 ^ 64 = 1024 * mb.toNat ↔ mb.toNat < 2 ^ 54
  omega

/-! ### The wall-clock limit -/

/-- The CPU limit stays below a number exactly if the product does. -/
theorem cpuMs_le_iff {limit : UInt64} {multiplier : ℚ} {n : Nat} (below : n < 2 ^ 64 - 1) :
    (cpuMs limit multiplier).toNat ≤ n ↔ (limit.toNat : ℚ) * multiplier ≤ n := by
  have value : (cpuMs limit multiplier).toNat =
      min ⌈(limit.toNat : ℚ) * multiplier⌉.toNat (2 ^ 64 - 1) :=
    UInt64.toNat_ofNat_of_lt' (by simp only [UInt64.size]; omega)
  have ceiling : ⌈(limit.toNat : ℚ) * multiplier⌉.toNat ≤ n ↔
      (limit.toNat : ℚ) * multiplier ≤ n := by
    rw [Int.toNat_le, Int.ceil_le, Int.cast_natCast]
  rw [value, ← ceiling]
  omega

/-- Twice the CPU limit and a second, as a `u64`, is a guard exactly if it does not wrap. -/
theorem wall_exact_iff (cpu : UInt64) :
    (cpu * 2 + 1000).toNat = 2 * cpu.toNat + 1000 ∧ cpu.toNat < (cpu * 2 + 1000).toNat ↔
      cpu.toNat ≤ 2 ^ 63 - 501 := by
  have small := cpu.toNat_lt
  rw [UInt64.toNat_add, UInt64.toNat_mul]
  show (cpu.toNat * 2 % 2 ^ 64 + 1000) % 2 ^ 64 = 2 * cpu.toNat + 1000 ∧
    cpu.toNat < (cpu.toNat * 2 % 2 ^ 64 + 1000) % 2 ^ 64 ↔ _
  omega

/-! ### The pool -/

/-- A pool that is made has the ids of its configuration, and at least one slot. -/
theorem IsolateSandbox.new_ok {cfg : IsolateConfig} {created : Except String Unit}
    {deeds : UInt32 → List Deed} {pool : Pool}
    (made : IsolateSandbox.new cfg created deeds = .ok pool) :
    cfg.slots ≠ 0 ∧ pool.freeIds = cfg.ids.reverse := by
  unfold IsolateSandbox.new at made
  by_cases none : cfg.slots = 0
  · rw [if_pos none] at made
    cases made
  · rw [if_neg none] at made
    cases created with
    | error source => cases made
    | ok done =>
      cases made
      exact ⟨none, rfl⟩

/-- A range whose end wraps is empty. -/
theorem IsolateConfig.ids_of_wrapped {cfg : IsolateConfig} (wrapped : ¬cfg.Fits) :
    cfg.ids = [] := by
  unfold Fits at wrapped
  have first := cfg.firstBoxId.toNat_lt
  have slots := cfg.slots.toNat_lt
  have none : (cfg.firstBoxId + cfg.slots).toNat - cfg.firstBoxId.toNat = 0 := by
    rw [UInt32.toNat_add]
    omega
  rw [ids, none]
  rfl

theorem pool_exact_iff {cfg : IsolateConfig} {created : Except String Unit}
    {deeds : UInt32 → List Deed} {pool : Pool}
    (made : IsolateSandbox.new cfg created deeds = .ok pool) :
    pool.freeIds.Nodup ∧ pool.freeIds.length = cfg.slots.toNat ↔ cfg.Fits := by
  obtain ⟨some, free⟩ := IsolateSandbox.new_ok made
  rw [free, List.nodup_reverse, List.length_reverse]
  constructor
  · rintro ⟨-, length⟩
    by_contra wrapped
    rw [IsolateConfig.ids_of_wrapped wrapped] at length
    exact some (UInt32.toNat_inj.mp length.symm)
  · exact fun fits => ⟨IsolateConfig.ids_nodup fits, IsolateConfig.length_ids fits⟩

end Codexec

namespace Codexec.Server

open Codexec Codexec.Library

/-! ### The lease -/

theorem lease_exact_iff (settings : Settings) :
    settings.leaseMs.toInt = 1000 * settings.leaseSeconds.toNat ↔
      1000 * settings.leaseSeconds.toNat < 2 ^ 63 := by
  have value : settings.leaseMs.toInt = (settings.leaseSeconds * 1000).toBitVec.toInt := rfl
  have bits : (settings.leaseSeconds * 1000).toBitVec.toNat =
      settings.leaseSeconds.toNat * 1000 % 2 ^ 64 := UInt64.toNat_mul _ _
  rw [value, BitVec.toInt_eq_toNat_cond, bits]
  split <;> omega

/-! ### All of them -/

/-- The limits are what the files say. -/
structure LimitsExact (manifest : Manifest) (problem : Problem) (lang : Language)
    (settings : Settings) (cfg : IsolateConfig) (pool : Pool) : Prop where
  memory : problem.memoryLimitKb.toNat = 1024 * manifest.memoryLimitMb.toNat ∧
    0 < problem.memoryLimitKb.toNat
  wall : ∀ req : JudgeRequest, req.timeLimitMs = problem.timeLimitMs →
    (settings.judge.runSpec lang req).limits.wallTime =
        2 * (settings.judge.runSpec lang req).limits.cpuTime + 1000 ∧
      (settings.judge.runSpec lang req).limits.cpuTime <
        (settings.judge.runSpec lang req).limits.wallTime
  lease : settings.leaseMs.toInt = 1000 * settings.leaseSeconds.toNat
  pool : pool.freeIds.Nodup ∧ pool.freeIds.length = cfg.slots.toNat

/-- The files ask for nothing that does not fit. -/
structure LimitsFit (manifest : Manifest) (lang : Language) (settings : Settings)
    (cfg : IsolateConfig) : Prop where
  memory : manifest.memoryLimitMb.toNat < 2 ^ 54
  wall : (manifest.timeLimitMs.toNat : ℚ) * lang.timeMultiplier ≤ 2 ^ 63 - 501
  lease : 1000 * settings.leaseSeconds.toNat < 2 ^ 63
  pool : cfg.Fits

/-- **The limits are what the files say exactly if these fit.** -/
theorem limits_exact_iff [Host] {sha256 : Bytes → Bytes} {dir : ProblemDir} {manifest : Manifest}
    {problem : Problem} {cfg : IsolateConfig} {created : Except String Unit}
    {deeds : UInt32 → List Deed} {pool : Pool} (parsed : dir.manifest = .ok manifest)
    (loads : Problem.load sha256 dir = .ok problem)
    (made : IsolateSandbox.new cfg created deeds = .ok pool) (lang : Language)
    (settings : Settings) :
    LimitsExact manifest problem lang settings cfg pool ↔ LimitsFit manifest lang settings cfg := by
  obtain ⟨manifest', checked, -, time, memory, -⟩ := Problem.load_checked loads
  obtain rfl : manifest = manifest' := Except.ok.inj (parsed.symm.trans checked.parsed)
  have positive : 0 < manifest.memoryLimitMb.toNat := by
    refine Nat.pos_of_ne_zero fun zero => checked.limits.2 ?_
    exact UInt64.toNat_inj.mp zero
  have guarded : (cpuMs manifest.timeLimitMs lang.timeMultiplier).toNat ≤ 2 ^ 63 - 501 ↔
      (manifest.timeLimitMs.toNat : ℚ) * lang.timeMultiplier ≤ 2 ^ 63 - 501 := by
    rw [cpuMs_le_iff (by decide)]
    norm_num
  have walls (req : JudgeRequest) (same : req.timeLimitMs = problem.timeLimitMs) :
      (settings.judge.runSpec lang req).limits.wallTime =
            2 * (settings.judge.runSpec lang req).limits.cpuTime + 1000 ∧
          (settings.judge.runSpec lang req).limits.cpuTime <
            (settings.judge.runSpec lang req).limits.wallTime ↔
        (manifest.timeLimitMs.toNat : ℚ) * lang.timeMultiplier ≤ 2 ^ 63 - 501 := by
    rw [← guarded, ← time, ← same]
    exact wall_exact_iff (cpuMs req.timeLimitMs lang.timeMultiplier)
  have kilobytes : problem.memoryLimitKb.toNat = 1024 * manifest.memoryLimitMb.toNat ↔
      manifest.memoryLimitMb.toNat < 2 ^ 54 := by
    rw [memory]
    exact memory_exact_iff _
  constructor
  · rintro ⟨inKb, wall, lease, free⟩
    let request : JudgeRequest := requestFor ⟨"", problem.slug, lang.id, "", 1⟩ problem
    exact ⟨kilobytes.mp inKb.1, (walls request rfl).mp (wall request rfl),
      (lease_exact_iff settings).mp lease, (pool_exact_iff made).mp free⟩
  · rintro ⟨inKb, wall, lease, free⟩
    refine ⟨⟨kilobytes.mpr inKb, ?_⟩, fun req same => (walls req same).mpr wall,
      (lease_exact_iff settings).mpr lease, (pool_exact_iff made).mpr free⟩
    rw [kilobytes.mpr inKb]
    omega

/-! ### Two sets of files -/

/-- A directory with one test. -/
def dirWith (manifest : Manifest) : ProblemDir :=
  { dirOf [sampleTest "2\n"] sampleTest_loaded with manifest := .ok manifest }

theorem load_dirWith [Host] (manifest : Manifest) (bare : manifest.samples = [])
    (limits : ¬(manifest.timeLimitMs = 0 ∨ manifest.memoryLimitMb = 0)) :
    ∃ problem, Problem.load id (dirWith manifest) = .ok problem ∧
      problem.timeLimitMs = manifest.timeLimitMs ∧
      problem.memoryLimitKb = manifest.memoryLimitMb * 1024 := by
  rw [Problem.load, dirWith, contents_withManifest sampleTest_loaded bare limits]
  exact ⟨_, rfl, rfl, rfl⟩

theorem limits_exact_iff_sample : ∃ problem pool,
    @Problem.load plainHost id (dirWith { title := "Problem" }) = .ok problem ∧
      IsolateSandbox.new oneBox (.ok ()) (fun _ => []) = .ok pool ∧
      LimitsExact { title := "Problem" } problem python sampleSettings oneBox pool := by
  let host : Host := plainHost
  obtain ⟨problem, loads, -⟩ := load_dirWith { title := "Problem" } rfl (by decide)
  have made : IsolateSandbox.new oneBox (.ok ()) (fun _ => []) =
      .ok ⟨[0], 1, [], fun _ => []⟩ := rfl
  refine ⟨problem, _, loads, made, ?_⟩
  refine (limits_exact_iff rfl loads made python sampleSettings).mpr
    ⟨by decide, ?_, by decide, by decide⟩
  show ((1000 : Nat) : ℚ) * 3 ≤ 2 ^ 63 - 501
  norm_num

/-- More memory than a `u64` counts in kilobytes, and the longest time a file can say. -/
def hugeManifest : Manifest :=
  { title := "Problem", timeLimitMs := 9223372036854775807, memoryLimitMb := 18014398509481984 }

/-- A lease of three hundred million years. -/
def hugeSettings : Settings := { sampleSettings with leaseSeconds := 9223372036854776 }

/-- The last box id there is. -/
def lastBox : IsolateConfig := { firstBoxId := 4294967295, slots := 1 }

/-- Large limits are accepted and become small. -/
theorem limits_wrap : ∃ problem pool,
    @Problem.load plainHost id (dirWith hugeManifest) = .ok problem ∧
      problem.memoryLimitKb = 0 ∧
      (∀ req : JudgeRequest, req.timeLimitMs = problem.timeLimitMs →
        (sampleJudge.runSpec rust req).limits.wallTime <
          (sampleJudge.runSpec rust req).limits.cpuTime) ∧
      hugeSettings.leaseMs.toInt < 0 ∧
      IsolateSandbox.new lastBox (.ok ()) (fun _ => []) = .ok pool ∧ pool.freeIds = [] := by
  let host : Host := plainHost
  obtain ⟨problem, loads, time, memory⟩ := load_dirWith hugeManifest rfl (by decide)
  refine ⟨problem, _, loads, memory.trans (by decide), ?_, by decide, rfl, by decide⟩
  intro req same
  have cpu : cpuMs req.timeLimitMs rust.timeMultiplier = 9223372036854775807 := by
    have one : rust.timeMultiplier = ((1 : Nat) : ℚ) := Nat.cast_one.symm
    rw [same, time, one, cpuMs_natCast]
    decide
  show (cpuMs req.timeLimitMs rust.timeMultiplier * 2 + 1000).toNat <
    (cpuMs req.timeLimitMs rust.timeMultiplier).toNat
  rw [cpu]
  decide

end Codexec.Server
