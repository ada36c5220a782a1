import KataAgent.ParseSize
import Mathlib.Data.Rat.Floor
import Mathlib.Tactic.Ring
import Mathlib.Tactic.NormNum

namespace KataAgent
open Fallible
set_option autoImplicit true

def DABBRS : List Chars :=
  ["B".toList, "KB".toList, "MB".toList, "GB".toList, "TB".toList, "PB".toList, "EB".toList,
    "ZB".toList, "YB".toList]

/-- The decimal expansion of a fraction whose denominator is a power of two. -/
def displayF64 (q : ℚ) : Chars :=
  let whole := ⌊q⌋.toNat
  let places := q.den.log2
  let digits := decimalText ⌊(q - whole) * 10 ^ places⌋.toNat
  if q.den = 1 then decimalText whole
  else decimalText whole ++ '.' :: (List.replicate (places - digits.length) '0' ++ digits)

/-- The loop counts up to the index of a label. Without labels left that is out of bounds, whenever
the loop ends. -/
def customSize (size base : ℚ) : List Chars → Outcome ErrorKind Chars
  | [] => .panic
  | abbr :: m =>
    if base < size then customSize (size / base) base m else .ok (displayF64 size ++ abbr)

/-- The loop of `get_hugepage_sizes` over the names in its directory. -/
def getHugepageSizes (d : DigitClass) (overflowChecks : Bool) :
    List (Option Chars) → Outcome ErrorKind (List Chars)
  | [] => .ok []
  | e :: es => do
    let name ← Outcome.ofUnwrap e
    match name.splitOn '-' with
    | [_, part] => do
      let size ← parseSize d overflowChecks part BMAP
      let label ← customSize size 1024 DABBRS
      let m ← getHugepageSizes d overflowChecks es
      .ok (label :: m)
    | _ => getHugepageSizes d overflowChecks es

/-- How the kernel lists a page size. -/
def hugepageDir (size : Nat) : Chars :=
  "hugepages-".toList ++ (decimalText (size / KiB) ++ "kB".toList)

/-- How the kernel names a page size in the files of the controller. -/
def kernelLabel (size : Nat) : Chars :=
  if GiB ≤ size then decimalText (size / GiB) ++ "GB".toList
  else if MiB ≤ size then decimalText (size / MiB) ++ "MB".toList
  else decimalText (size / KiB) ++ "KB".toList

def numberText (v : UInt64) : String := String.ofList (decimalText v.toNat ++ ['\n'])

/-- The directory has the files of these page sizes. -/
def HasHugetlbFiles (g : CgroupGuest) (dir : String) (labels : List String) : Prop :=
  ∀ label ∈ labels, ∀ file ∈ [".usage_in_bytes", ".max_usage_in_bytes", ".failcnt"],
    ∃ v, g.readFile dir ("hugetlb." ++ label ++ file) = .ok (numberText v)

/-- The label of a page size whose exponent is this. -/
def pageLabel (d : DigitClass) (overflowChecks : Bool) (k : Nat) : Outcome ErrorKind Chars := do
  let size ← parseSize d overflowChecks (decimalText (2 ^ k / KiB) ++ "kB".toList) BMAP
  customSize size 1024 DABBRS

section
variable {d : DigitClass} {overflowChecks : Bool} {k : Nat}

theorem displayF64_natCast (n : Nat) : displayF64 n = decimalText n := by
  rw [displayF64, if_pos (Rat.den_natCast n)]
  rw [Int.floor_natCast, Int.toNat_natCast]

theorem customSize_pow (labels : List Chars) (k : Nat) : customSize (2 ^ k : Nat) 1024 labels =
    match labels[(k - 1) / 10]? with
    | some abbr => .ok (decimalText (2 ^ (k - (k - 1) / 10 * 10)) ++ abbr)
    | none => .panic := by
  induction labels generalizing k with
  | nil => rfl
  | cons abbr labels ih =>
    rw [customSize]
    by_cases hk : k ≤ 10
    · have hle : ¬ (1024 : ℚ) < (2 ^ k : Nat) := by
        have hpow : 2 ^ k ≤ 2 ^ 10 := Nat.pow_le_pow_right (by decide) hk
        rw [not_lt]
        exact_mod_cast hpow
      rw [if_neg hle, displayF64_natCast, show (k - 1) / 10 = 0 by omega]
      rfl
    · have hlt : (1024 : ℚ) < (2 ^ k : Nat) := by
        have hpow : 2 ^ 10 < 2 ^ k := Nat.pow_lt_pow_right (by decide) (by omega)
        exact_mod_cast hpow
      have hdiv : ((2 ^ k : Nat) : ℚ) / 1024 = (2 ^ (k - 10) : Nat) := by
        have hpow : 2 ^ k = 2 ^ (k - 10) * 1024 := by
          rw [show 1024 = 2 ^ 10 from rfl, ← Nat.pow_add]
          congr 1
          omega
        rw [hpow, Nat.cast_mul]
        exact mul_div_cancel_right₀ _ (by norm_num)
      rw [if_pos hlt, hdiv, ih, show (k - 1) / 10 = (k - 10 - 1) / 10 + 1 by omega,
        List.getElem?_cons_succ,
        show k - ((k - 10 - 1) / 10 + 1) * 10 = k - 10 - (k - 10 - 1) / 10 * 10 by omega]

/-- The pattern takes all of the size of a directory. -/
theorem sizeMatch_kB (n : Nat) :
    SizeMatch d (decimalText n ++ "kB".toList) [] (decimalText n) ['k'] ['B'] where
  text := by
    rw [List.nil_append, List.append_assoc]
    rfl
  num_ok := ⟨decimalText_ne_nil n,
    fun c hc => DigitClass.of_isDigit (isDigit_of_mem_decimalText hc)⟩
  mul_ok := ⟨Nat.le_refl 1, forall_mem_of_all (by decide)⟩
  byte_ok := ⟨Nat.le_refl 1, forall_mem_of_all (by decide)⟩
  leftmost := fun c hc => by cases hc

theorem parseSize_kB (n : Nat) :
    parseSize d overflowChecks (decimalText n ++ "kB".toList) BMAP =
      (parseU128.go 0 (decimalText n) >>= fun size => mulU128 overflowChecks size KiB) := by
  rw [(sizeMatch_kB n).parseSize_eq BMAP, lookup_BMAP (sizeMatch_kB (d := d) n).mul_ok]
  rfl

theorem parseU128_decimalText (n m : Nat) :
    parseU128.go 0 (decimalText n) = .ok m ↔ n < 2 ^ 128 ∧ m = n := by
  have hvalue := decimalValue_decimalText n
  rw [decimalValue] at hvalue
  rw [parseU128_go_eq_ok (by decide), hvalue]
  exact ⟨fun h => h.2, fun h => ⟨fun c hc => isDigit_of_mem_decimalText hc, h⟩⟩

theorem pow_eq_kib (hk : 10 ≤ k) : 2 ^ k = 2 ^ k / KiB * KiB := by
  have hdvd : KiB ∣ 2 ^ k := Nat.pow_dvd_pow 2 hk
  exact (Nat.div_mul_cancel hdvd).symm

theorem pageLabel_of_lt (hk : 10 ≤ k) (hlt : k < 128) :
    pageLabel d overflowChecks k = customSize (2 ^ k : Nat) 1024 DABBRS := by
  have hpow : 2 ^ k < 2 ^ 128 := Nat.pow_lt_pow_right (by decide) hlt
  have hdiv : 2 ^ k / KiB < 2 ^ 128 := Nat.lt_of_le_of_lt (Nat.div_le_self _ _) hpow
  have hgo := (parseU128_decimalText (2 ^ k / KiB) _).2 ⟨hdiv, rfl⟩
  rw [pageLabel, parseSize_kB, hgo, Outcome.ok_bind, mulU128, ← pow_eq_kib hk, if_pos hpow]
  rfl

/-- A size that does not fit is an error or a panic, or it wraps around to none at all. -/
theorem pageLabel_of_ge (hk : 128 ≤ k) {label : Chars}
    (h : pageLabel d overflowChecks k = .ok label) : label = "0B".toList := by
  rw [pageLabel, parseSize_kB] at h
  obtain ⟨size, hsize, hlabel⟩ := Outcome.bind_eq_ok.1 h
  obtain ⟨n, hn, hmul⟩ := Outcome.bind_eq_ok.1 hsize
  obtain ⟨-, rfl⟩ := (parseU128_decimalText _ _).1 hn
  have hge : ¬ 2 ^ k < 2 ^ 128 := Nat.not_lt.2 (Nat.pow_le_pow_right (by decide) hk)
  rw [mulU128, ← pow_eq_kib (by omega), if_neg hge] at hmul
  cases overflowChecks with
  | true => cases hmul
  | false =>
    cases hmul
    have hzero : 2 ^ k % 2 ^ 128 = 0 := Nat.mod_eq_zero_of_dvd (Nat.pow_dvd_pow 2 hk)
    rw [hzero, DABBRS, customSize, if_neg (by norm_num), displayF64_natCast] at hlabel
    exact (Outcome.ok.inj hlabel).symm

/-- Digits end where the label begins. -/
theorem decimalText_append_inj {m n : Nat} {u v : Chars}
    (hu : u.head?.all (fun c => !c.isDigit) = true) (hv : v.head?.all (fun c => !c.isDigit) = true)
    (h : decimalText m ++ u = decimalText n ++ v) : m = n ∧ u = v := by
  have hrev : u.reverse ++ (decimalText m).reverse = v.reverse ++ (decimalText n).reverse := by
    rw [← List.reverse_append, ← List.reverse_append, h]
  have hdigit (n : Nat) : ∀ c ∈ (decimalText n).reverse, c.isDigit = true :=
    fun c hc => isDigit_of_mem_decimalText (List.mem_reverse.1 hc)
  have hhead {w : Chars} (hw : w.head?.all (fun c => !c.isDigit) = true) :
      ∀ c ∈ w.reverse.getLast?, c.isDigit = false := by
    intro c hc
    rw [List.getLast?_reverse] at hc
    rw [Option.mem_def.1 hc, Option.all_some, Bool.not_eq_true'] at hw
    exact hw
  obtain ⟨huv, hmn⟩ := append_run_inj (hhead hu) (hhead hv) (hdigit m) (hdigit n) hrev
  exact ⟨decimalText_inj (List.reverse_inj.1 hmn), List.reverse_inj.1 huv⟩

theorem kernelLabel_of_large (hk : 30 ≤ k) :
    kernelLabel (2 ^ k) = decimalText (2 ^ k / GiB) ++ "GB".toList := by
  have hpow : 2 ^ 30 ≤ 2 ^ k := Nat.pow_le_pow_right (by decide) hk
  exact if_pos hpow

/-- The unit changes right above a power of 1024, where the kernel changes it at the power. -/
theorem customLabel_small : ∀ k < 41, 10 ≤ k →
    (DABBRS[(k - 1) / 10]?.map (decimalText (2 ^ (k - (k - 1) / 10 * 10)) ++ ·) =
      some (kernelLabel (2 ^ k)) ↔ k ≠ 10 ∧ k ≠ 20 ∧ k ≠ 30) := by
  decide

theorem pageLabel_iff (hk : 10 ≤ k) : pageLabel d overflowChecks k = .ok (kernelLabel (2 ^ k)) ↔
    k ≠ 10 ∧ k ≠ 20 ∧ k ≠ 30 ∧ k ≤ 40 := by
  have hunit : ∀ abbr ∈ DABBRS.drop 4, abbr.head?.all (fun c => !c.isDigit) = true ∧
      abbr ≠ "GB".toList := by decide
  by_cases hsmall : k < 41
  · rw [pageLabel_of_lt hk (by omega), customSize_pow]
    have hlabel := customLabel_small k hsmall hk
    cases hl : DABBRS[(k - 1) / 10]? with
    | none =>
      rw [hl] at hlabel
      dsimp only
      constructor
      · intro h
        cases h
      · intro ⟨h10, h20, h30, _⟩
        cases hlabel.2 ⟨h10, h20, h30⟩
    | some abbr =>
      rw [hl, Option.map_some, Option.some_inj] at hlabel
      rw [Outcome.ok.injEq, hlabel]
      exact ⟨fun ⟨h10, h20, h30⟩ => ⟨h10, h20, h30, by omega⟩,
        fun ⟨h10, h20, h30, _⟩ => ⟨h10, h20, h30⟩⟩
  · refine ⟨fun h => ?_, fun h => absurd h.2.2.2 (by omega)⟩
    rw [kernelLabel_of_large (by omega)] at h
    by_cases hlt : k < 128
    · rw [pageLabel_of_lt hk hlt, customSize_pow] at h
      cases hl : DABBRS[(k - 1) / 10]? with
      | none =>
        rw [hl] at h
        cases h
      | some abbr =>
        rw [hl] at h
        have hmem : abbr ∈ DABBRS.drop 4 := by
          rw [List.mem_iff_getElem?]
          refine ⟨(k - 1) / 10 - 4, ?_⟩
          rw [List.getElem?_drop, show 4 + ((k - 1) / 10 - 4) = (k - 1) / 10 by omega, hl]
        obtain ⟨hdigit, hne⟩ := hunit abbr hmem
        exact absurd (decimalText_append_inj hdigit (by decide) (Outcome.ok.inj h)).2 hne
    · have hzero := pageLabel_of_ge (by omega) h
      have hinj := decimalText_append_inj (m := 2 ^ k / GiB) (n := 0) (u := "GB".toList)
        (v := "B".toList) (by decide) (by decide) hzero
      exact absurd hinj.2 (by decide)

theorem getHugepageSizes_dirs (ks : List Nat) :
    getHugepageSizes d overflowChecks (ks.map fun k => some (hugepageDir (2 ^ k))) =
      ks.mapM (pageLabel d overflowChecks) := by
  induction ks with
  | nil => rfl
  | cons k ks ih =>
    have hdash : '-' ∉ decimalText (2 ^ k / KiB) ++ "kB".toList := by
      rw [List.mem_append]
      exact not_or.2 ⟨notMem_decimalText (by decide), by decide⟩
    have hsplit : (hugepageDir (2 ^ k)).splitOn '-' =
        ["hugepages".toList, decimalText (2 ^ k / KiB) ++ "kB".toList] := by
      have hprefix : '-' ∉ "hugepages".toList := by decide
      have h := List.splitOn_append_cons_self_of_not_mem hprefix
        (decimalText (2 ^ k / KiB) ++ "kB".toList)
      rw [List.splitOn_eq_singleton hdash] at h
      exact h
    rw [List.map_cons, getHugepageSizes, List.mapM_cons, ← ih, pageLabel, Outcome.ofUnwrap_some,
      Outcome.ok_bind, hsplit]
    dsimp only
    rw [Outcome.bind_assoc]
    rfl

theorem getParamU64_numberText {g : CgroupGuest} {dir file : String} {v : UInt64}
    (h : g.readFile dir file = .ok (numberText v)) : getParamU64 g dir file = .ok v := by
  rw [getParamU64, h, Outcome.ok_bind, numberText, String.toList_ofList, trim_decimalText_newline,
    parseU64_decimalText]

theorem HugeTLB.getStats_of_files {g : CgroupGuest} {dir : String}
    (h : HasHugetlbFiles g dir g.hugepageSizes) : ∃ stats, HugeTLB.getStats g dir = .ok stats := by
  have hloop (sizes : List String) (hs : ∀ size ∈ sizes, size ∈ g.hugepageSizes)
      (stats : Table String HugetlbStats) : ∃ r, hugetlbStats g dir stats sizes = .ok r := by
    induction sizes generalizing stats with
    | nil => exact ⟨stats, rfl⟩
    | cons size sizes ih =>
      obtain ⟨hsize, hs⟩ := List.forall_mem_cons.1 hs
      obtain ⟨usage, husage⟩ := h size hsize ".usage_in_bytes" (by decide)
      obtain ⟨maxUsage, hmax⟩ := h size hsize ".max_usage_in_bytes" (by decide)
      obtain ⟨failcnt, hfail⟩ := h size hsize ".failcnt" (by decide)
      rw [hugetlbStats, getParamU64_numberText husage, Outcome.ok_bind,
        getParamU64_numberText hmax, Outcome.ok_bind, getParamU64_numberText hfail,
        Outcome.ok_bind]
      exact ih hs _
  exact hloop g.hugepageSizes (fun _ h => h) ∅

end

/-- The labels are the kernel's, and the statistics are read, exactly if no page size is 1 KiB,
1 MiB, 1 GiB or above 1 TiB. -/
theorem hugepageSizes_iff (d : DigitClass) (overflowChecks : Bool) (ks : List Nat)
    (hks : ∀ k ∈ ks, 10 ≤ k) :
    (∃ labels, getHugepageSizes d overflowChecks (ks.map fun k => some (hugepageDir (2 ^ k))) =
        .ok labels ∧ labels = ks.map (fun k => kernelLabel (2 ^ k)) ∧
      ∀ (g : CgroupGuest) (dir : String), g.hugepageSizes = labels.map String.ofList →
        HasHugetlbFiles g dir (ks.map fun k => String.ofList (kernelLabel (2 ^ k))) →
        ∃ stats, HugeTLB.getStats g dir = .ok stats) ↔
      ∀ k ∈ ks, k ≠ 10 ∧ k ≠ 20 ∧ k ≠ 30 ∧ k ≤ 40 := by
  rw [getHugepageSizes_dirs]
  constructor
  · intro ⟨labels, h, hlabels, _⟩ k hk
    rw [hlabels, Outcome.mapM_eq_ok, List.forall₂_map_right_iff, List.forall₂_same] at h
    exact (pageLabel_iff (hks k hk)).1 (h k hk)
  · intro h
    refine ⟨ks.map fun k => kernelLabel (2 ^ k), ?_, rfl, ?_⟩
    · rw [Outcome.mapM_eq_ok, List.forall₂_map_right_iff, List.forall₂_same]
      intro k hk
      exact (pageLabel_iff (hks k hk)).2 (h k hk)
    · intro g dir hg hfiles
      apply HugeTLB.getStats_of_files
      rw [hg, List.map_map]
      exact hfiles

/-- Pages of 2 MiB and 512 MiB. -/
theorem hugepageSizes_common : ∃ labels,
    getHugepageSizes asciiDigits true ([21, 29].map fun k => some (hugepageDir (2 ^ k))) =
        .ok labels ∧ labels = [21, 29].map (fun k => kernelLabel (2 ^ k)) ∧
      ∀ (g : CgroupGuest) (dir : String), g.hugepageSizes = labels.map String.ofList →
        HasHugetlbFiles g dir ([21, 29].map fun k => String.ofList (kernelLabel (2 ^ k))) →
        ∃ stats, HugeTLB.getStats g dir = .ok stats :=
  (hugepageSizes_iff asciiDigits true [21, 29] (by decide)).2 (by decide)

/-- Pages of 1 GiB are labelled in MB. -/
theorem hugepageSizes_gigabyte : ¬ ∀ (d : DigitClass) (overflowChecks : Bool) (ks : List Nat),
    (∀ k ∈ ks, 10 ≤ k) →
    ∃ labels, getHugepageSizes d overflowChecks (ks.map fun k => some (hugepageDir (2 ^ k))) =
        .ok labels ∧ labels = ks.map (fun k => kernelLabel (2 ^ k)) ∧
      ∀ (g : CgroupGuest) (dir : String), g.hugepageSizes = labels.map String.ofList →
        HasHugetlbFiles g dir (ks.map fun k => String.ofList (kernelLabel (2 ^ k))) →
        ∃ stats, HugeTLB.getStats g dir = .ok stats := by
  intro h
  obtain ⟨labels, hl, hlabels, -⟩ := h asciiDigits true [30] (by decide)
  rw [getHugepageSizes_dirs, hlabels, Outcome.mapM_eq_ok] at hl
  cases hl with
  | cons hlabel _ =>
    rw [pageLabel_of_lt (by decide) (by decide), customSize_pow] at hlabel
    exact absurd hlabel (by decide)

end KataAgent
