import KataAgent.BinaryRounding
import KataAgent.HugepageSizes

namespace KataAgent
open Fallible
set_option autoImplicit true

/-- Rounding to `f64`, for numbers far from the bounds of its exponents. -/
def toF64 (x : ℚ) : ℚ := roundBinary 52 x

/-- `as u64`, which cuts off what is behind the point and stays below `2 ^ 64`. -/
def toU64 (x : ℚ) : UInt64 := UInt64.ofNat (min ⌊x⌋₊ (2 ^ 64 - 1))

/-- The division of `get_stats` by `CLOCK_TICKS`. -/
def perClockTick (ticks : ℚ) (v : UInt64) : UInt64 := toU64 (toF64 (toF64 v.toNat / ticks))

/-- The counters in `cpuacct.stat`. -/
def HasTicks (g : CgroupGuest) (dir : String) (user system : UInt64) : Prop :=
  ∃ h, getParamKeyU64 g dir "cpuacct.stat" = .ok h ∧ h.lookup "user" = some user ∧
    h.lookup "system" = some system

/-- The product with `NANO_PER_SECOND` fits. -/
def FitsNanos (v : UInt64) : Prop := v.toNat * nanoPerSecond.toNat < 2 ^ 64

section
variable {x y ticks : ℚ} {u v : UInt64} {g : CgroupGuest} {dir : String} {user system : UInt64}

theorem toU64_mono (h : x ≤ y) : toU64 x ≤ toU64 y := by
  have hlt (n : ℕ) : min n (2 ^ 64 - 1) < UInt64.size :=
    lt_of_le_of_lt (min_le_right n _) (by decide)
  rw [toU64, toU64, UInt64.ofNat_le_iff_le (hlt _) (hlt _)]
  exact min_le_min_right _ (Nat.floor_le_floor h)

theorem toF64_mono (hx : 0 ≤ x) (h : x ≤ y) : toF64 x ≤ toF64 y := roundBinary_mono hx h

theorem perClockTick_mono (ht : 0 < ticks) (h : u ≤ v) :
    perClockTick ticks u ≤ perClockTick ticks v := by
  have hle : (u.toNat : ℚ) ≤ v.toNat := Nat.cast_le.2 (UInt64.le_iff_toNat_le.1 h)
  have hdiv : toF64 u.toNat / ticks ≤ toF64 v.toNat / ticks :=
    div_le_div_of_nonneg_right (toF64_mono (Nat.cast_nonneg _) hle) ht.le
  apply toU64_mono
  apply toF64_mono _ hdiv
  exact div_nonneg (roundBinary_nonneg (Nat.cast_nonneg _)) ht.le

theorem fitsNanos_iff : FitsNanos v ↔ v.toNat ≤ 18446744073 := by
  have hnano : nanoPerSecond.toNat = 1000000000 := rfl
  rw [FitsNanos, hnano]
  omega

theorem nanos_mono (h : u ≤ v) (hv : FitsNanos v) : u * nanoPerSecond ≤ v * nanoPerSecond := by
  have hmul : u.toNat * nanoPerSecond.toNat ≤ v.toNat * nanoPerSecond.toNat :=
    Nat.mul_le_mul_right _ (UInt64.le_iff_toNat_le.1 h)
  rw [UInt64.le_iff_toNat_le, UInt64.toNat_mul, UInt64.toNat_mul, Nat.mod_eq_of_lt hv,
    Nat.mod_eq_of_lt (Nat.lt_of_le_of_lt hmul hv)]
  exact hmul

theorem CpuAcct.usage_of_ticks {stats : CpuUsage} (h : HasTicks g dir user system)
    (hs : CpuAcct.getStats g dir = .ok stats) :
    stats.usageInUsermode = g.perTick (user * nanoPerSecond) ∧
      stats.usageInKernelmode = g.perTick (system * nanoPerSecond) := by
  obtain ⟨t, ht, huser, hsystem⟩ := h
  rw [CpuAcct.getStats, ht, Outcome.ok_bind, huser, Outcome.ofUnwrap_some, Outcome.ok_bind, hsystem,
    Outcome.ofUnwrap_some, Outcome.ok_bind] at hs
  obtain ⟨_, -, hs⟩ := Outcome.bind_eq_ok.1 hs
  obtain ⟨_, -, hs⟩ := Outcome.bind_eq_ok.1 hs
  cases hs
  exact ⟨rfl, rfl⟩

end

/-- No product overflows and no time goes backwards between two samples, exactly if the later
counters are at most 18446744073. -/
theorem cpuTime_iff (ticks : ℚ) (ht : 0 < ticks) (g₁ g₂ : CgroupGuest) (dir₁ dir₂ : String)
    (hg₁ : g₁.perTick = perClockTick ticks) (hg₂ : g₂.perTick = perClockTick ticks)
    (user₁ system₁ user₂ system₂ : UInt64) (h₁ : HasTicks g₁ dir₁ user₁ system₁)
    (h₂ : HasTicks g₂ dir₂ user₂ system₂) (hu : user₁ ≤ user₂) (hs : system₁ ≤ system₂)
    (stats₁ stats₂ : CpuUsage) (hs₁ : CpuAcct.getStats g₁ dir₁ = .ok stats₁)
    (hs₂ : CpuAcct.getStats g₂ dir₂ = .ok stats₂) :
    ((∀ v ∈ [user₁, system₁, user₂, system₂], FitsNanos v) ∧
      stats₁.usageInUsermode ≤ stats₂.usageInUsermode ∧
      stats₁.usageInKernelmode ≤ stats₂.usageInKernelmode) ↔
    user₂.toNat ≤ 18446744073 ∧ system₂.toNat ≤ 18446744073 := by
  rw [← fitsNanos_iff, ← fitsNanos_iff]
  constructor
  · intro ⟨hfits, _⟩
    exact ⟨hfits user₂ (by simp), hfits system₂ (by simp)⟩
  · intro ⟨huser, hsystem⟩
    have hearlier {u v : UInt64} (h : u ≤ v) (hv : FitsNanos v) : FitsNanos u := by
      rw [fitsNanos_iff] at hv ⊢
      exact le_trans (UInt64.le_iff_toNat_le.1 h) hv
    obtain ⟨hu₁, hk₁⟩ := CpuAcct.usage_of_ticks h₁ hs₁
    obtain ⟨hu₂, hk₂⟩ := CpuAcct.usage_of_ticks h₂ hs₂
    refine ⟨?_, ?_, ?_⟩
    · simp only [List.forall_mem_cons]
      exact ⟨hearlier hu huser, hearlier hs hsystem, huser, hsystem, fun _ h => by cases h⟩
    · rw [hu₁, hu₂, hg₁, hg₂]
      exact perClockTick_mono ht (nanos_mono hu huser)
    · rw [hk₁, hk₂, hg₁, hg₂]
      exact perClockTick_mono ht (nanos_mono hs hsystem)

/-- A guest with one accounting cgroup, and 100 ticks in a second. -/
def acctGuest (user system : UInt64) : CgroupGuest where
  read path :=
    if path = "/cpuacct.stat" then
      .ok (fileText ["user ".toList ++ decimalText user.toNat,
        "system ".toList ++ decimalText system.toNat])
    else if path = "/cpuacct.usage" then .ok (numberText 0)
    else if path = "/cpuacct.usage_percpu" then .ok ""
    else .error notFound
  hugepageSizes := []
  perTick := perClockTick 100

theorem splitOn_stat {word : Chars} (hw : ' ' ∉ word) (n : Nat) :
    ((word ++ [' ']) ++ decimalText n).splitOn ' ' = [word, decimalText n] := by
  rw [List.append_assoc, List.singleton_append, List.splitOn_append_cons_self_of_not_mem hw,
    List.splitOn_eq_singleton (notMem_decimalText (by decide))]

theorem lines_stat (user system : Nat) :
    lines (fileText ["user ".toList ++ decimalText user, "system ".toList ++ decimalText system]) =
      ["user ".toList ++ decimalText user, "system ".toList ++ decimalText system] := by
  have hword (word : Chars) (hn : '\n' ∉ word ∧ '\r' ∉ word) (n : Nat) :
      '\n' ∉ word ++ decimalText n ∧ '\r' ∉ word ++ decimalText n := by
    rw [List.mem_append, List.mem_append]
    exact ⟨not_or.2 ⟨hn.1, notMem_decimalText (by decide)⟩,
      not_or.2 ⟨hn.2, notMem_decimalText (by decide)⟩⟩
  have huser := hword "user ".toList (by decide) user
  have hsystem := hword "system ".toList (by decide) system
  have hline : ∀ l ∈ ["user ".toList ++ decimalText user, "system ".toList ++ decimalText system],
      '\n' ∉ l := by
    simp only [List.forall_mem_cons]
    exact ⟨huser.1, hsystem.1, fun _ h => by cases h⟩
  rw [lines_fileText hline, List.map_cons, List.map_singleton, stripReturn_of_notMem huser.2,
    stripReturn_of_notMem hsystem.2]

theorem acctGuest_ticks (user system : UInt64) :
    HasTicks (acctGuest user system) "" user system := by
  have hread : (acctGuest user system).readFile "" "cpuacct.stat" = .ok (fileText
      ["user ".toList ++ decimalText user.toNat,
        "system ".toList ++ decimalText system.toNat]) := by
    rw [CgroupGuest.readFile, acctGuest]
    dsimp only
    rw [if_pos (by decide)]
  have hu := @splitOn_stat "user".toList (by decide) user.toNat
  have hs := @splitOn_stat "system".toList (by decide) system.toNat
  rw [show "user".toList ++ [' '] = "user ".toList by decide] at hu
  rw [show "system".toList ++ [' '] = "system ".toList by decide] at hs
  refine ⟨((∅ : Table String UInt64).insert "user" user).insert "system" system, ?_, ?_, ?_⟩
  · rw [getParamKeyU64, hread, Outcome.ok_bind, lines_stat, keyU64, hu]
    dsimp only
    rw [trim_decimalText, parseU64_decimalText, Outcome.ok_bind, keyU64, hs]
    dsimp only
    rw [trim_decimalText, parseU64_decimalText, Outcome.ok_bind, keyU64]
    simp only [String.ofList_toList]
  · rw [Finmap.lookup_insert_of_ne _ (by decide), Finmap.lookup_insert]
  · rw [Finmap.lookup_insert]

/-- The statistics of such a guest. -/
def acctStats (user system : UInt64) : CpuUsage :=
  ⟨0, [], perClockTick 100 (system * nanoPerSecond), perClockTick 100 (user * nanoPerSecond)⟩

theorem acctGuest_stats (user system : UInt64) :
    CpuAcct.getStats (acctGuest user system) "" = .ok (acctStats user system) := by
  obtain ⟨t, ht, huser, hsystem⟩ := acctGuest_ticks user system
  have husage : getParamU64 (acctGuest user system) "" "cpuacct.usage" = .ok 0 := by
    apply getParamU64_numberText
    rw [CgroupGuest.readFile, acctGuest]
    dsimp only
    rw [if_neg (by decide), if_pos (by decide)]
  have hpercpu : getPercpuUsage (acctGuest user system) "" "cpuacct.usage_percpu" = .ok [] := by
    rw [getPercpuUsage, CgroupGuest.readFile, acctGuest]
    dsimp only
    rw [if_neg (by decide), if_neg (by decide), if_pos (by decide)]
    rfl
  rw [CpuAcct.getStats, ht, Outcome.ok_bind, huser, Outcome.ofUnwrap_some, Outcome.ok_bind, hsystem,
    Outcome.ofUnwrap_some, Outcome.ok_bind, husage, Outcome.ok_bind, hpercpu, Outcome.ok_bind]
  rfl

/-- Half a second after a second. -/
theorem cpuTime_later :
    (∀ v ∈ [100, 100, 150, 150], FitsNanos v) ∧
      (acctStats 100 100).usageInUsermode ≤ (acctStats 150 150).usageInUsermode ∧
      (acctStats 100 100).usageInKernelmode ≤ (acctStats 150 150).usageInKernelmode :=
  (cpuTime_iff 100 (by norm_num) (acctGuest 100 100) (acctGuest 150 150) "" "" rfl rfl
    100 100 150 150 (acctGuest_ticks 100 100) (acctGuest_ticks 150 150) (by decide) (by decide)
    (acctStats 100 100) (acctStats 150 150) (acctGuest_stats 100 100)
    (acctGuest_stats 150 150)).2 (by decide)

/-- The product wraps around between these two counters. -/
theorem cpuTime_wraps : ¬ ∀ (ticks : ℚ), 0 < ticks → ∀ (g₁ g₂ : CgroupGuest) (dir₁ dir₂ : String),
    g₁.perTick = perClockTick ticks → g₂.perTick = perClockTick ticks →
    ∀ user₁ system₁ user₂ system₂ : UInt64, HasTicks g₁ dir₁ user₁ system₁ →
    HasTicks g₂ dir₂ user₂ system₂ → user₁ ≤ user₂ → system₁ ≤ system₂ →
    ∀ stats₁ stats₂ : CpuUsage, CpuAcct.getStats g₁ dir₁ = .ok stats₁ →
    CpuAcct.getStats g₂ dir₂ = .ok stats₂ →
    (∀ v ∈ [user₁, system₁, user₂, system₂], FitsNanos v) ∧
      stats₁.usageInUsermode ≤ stats₂.usageInUsermode ∧
      stats₁.usageInKernelmode ≤ stats₂.usageInKernelmode := by
  intro h
  obtain ⟨hfits, -⟩ := h 100 (by norm_num) (acctGuest 18446744073 0) (acctGuest 18446744074 0) "" ""
    rfl rfl _ _ _ _ (acctGuest_ticks _ _) (acctGuest_ticks _ _) (by decide) (by decide) _ _
    (acctGuest_stats _ _) (acctGuest_stats _ _)
  have hlast := fitsNanos_iff.1 (hfits 18446744074 (by simp))
  exact absurd hlast (by decide)

end KataAgent
