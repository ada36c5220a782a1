import KataAgent.SysctlFiles
import KataAgent.DecimalText
import KataAgent.RadixText

namespace KataAgent
open Fallible RadixText
set_option autoImplicit true

/-- The kernel's memory hotplug, and what it answers about its files. -/
structure MemoryGuest where
  /-- `block_size_bytes`. -/
  blockSizeFile : Except OpenError Chars
  /-- `stat` of `probe`. -/
  stat : Option Errno
  /-- The opening of `probe` for writing. -/
  create : Option String
  /-- The size of a memory block. -/
  block : Nat
  /-- What else the kernel has against a block at an address, when it has added blocks at these. -/
  refused : List Nat → Nat → Option String
  /-- A block that is there is not added again. -/
  refused_added : ∀ added a, a ∈ added → (refused added a).isSome = true

/-- The size of a memory block, for `get_memory_info`. -/
def memoryBlockSize (g : MemoryGuest) : Outcome ErrorKind UInt64 :=
  match g.blockSizeFile with
  | .ok v => if v = [] then .err (.errorCode "Invalid block size") else parseU64 (trim v)
  | .error .NotFound => .ok 0
  | .error (.other text) => .err (.io text)

/-- The support of the probe file. -/
def hotplugProbe (g : MemoryGuest) : Outcome ErrorKind Bool :=
  match g.stat with
  | none => .ok true
  | some .ENOENT => .ok false
  | some e => .err (.nix e)

def getMemoryInfo (g : MemoryGuest) (blockSize hotplug : Bool) :
    Outcome ErrorKind (UInt64 × Bool) := do
  let size ← (if blockSize then memoryBlockSize g else .ok 0)
  let plug ← (if hotplug then hotplugProbe g else .ok false)
  .ok (size, plug)

/-- `%lx`. -/
def hexLower (n : Nat) : Chars := Nat.toDigits 16 n

/-- `{:#X}`. -/
def hexUpper (n : Nat) : Chars := '0' :: 'x' :: (Nat.toDigits 16 n).map Char.toUpper

/-- The base of a number by its first characters, and its digits. -/
def numberBase : Chars → Nat × Chars
  | '0' :: x :: c :: cs =>
    if (x = 'x' ∨ x = 'X') ∧ (digit 16 c).isSome then (16, c :: cs) else (8, '0' :: x :: c :: cs)
  | '0' :: cs => (8, '0' :: cs)
  | cs => (10, cs)

/-- `kstrtoull` of the kernel, with base 0. -/
def kstrtoull (text : Chars) : Option Nat :=
  let digits := if text.head? = some '+' then text.tail else text
  let number := numberBase digits
  let read := scan number.1 0 number.2
  if read.2 ≠ number.2 ∧ (read.2 = [] ∨ read.2 = ['\n']) ∧ read.1 < 2 ^ 64 then some read.1
  else none

def einvalText : String := "Invalid argument (os error 22)"

/-- `fs::write` to `probe`. The state is the list of the addresses where the kernel has added a
block. -/
def probe (g : MemoryGuest) (text : Chars) : Act (List Nat) ErrorKind Unit := fun added =>
  match g.create with
  | some e => (.err (.io e), added)
  | none =>
    match kstrtoull text with
    | none => (.err (.io einvalText), added)
    | some a =>
      if a % g.block ≠ 0 then (.err (.io einvalText), added)
      else
        match g.refused added a with
        | some e => (.err (.io e), added)
        | none => (.ok (), added ++ [a])

def doMemHotplugByProbe (g : MemoryGuest) (addrs : List UInt64) : Act (List Nat) ErrorKind Unit :=
  addrs.forM fun addr => probe g (hexUpper addr.toNat)

variable {g : MemoryGuest}

/-- A block can be added there, after the others. -/
def MemoryGuest.Takes (g : MemoryGuest) (added : List Nat) (addr : UInt64) : Prop :=
  g.create = none ∧ addr.toNat % g.block = 0 ∧ g.refused added addr.toNat = none

/-- The blocks are added one after the other, up to the first address that does not take one. -/
inductive MemoryGuest.Adds (g : MemoryGuest) : List Nat → List UInt64 → List UInt64 → Prop where
  | all : g.Adds added [] []
  | next {done rest : List UInt64} : g.Takes added addr →
      g.Adds (added ++ [addr.toNat]) done rest → g.Adds added (addr :: done) rest
  | stop : ¬ g.Takes added addr → g.Adds added [] (addr :: rest)

/-- The kernel reads the address that was written. -/
theorem kstrtoull_hexUpper {n : Nat} (h : n < 2 ^ 64) : kstrtoull (hexUpper n) = some n := by
  obtain ⟨c, cs, hcons⟩ := toDigits_cons 16 n
  have hread := scan_number writes_upper (by decide) (Nat.le_refl 16) n []
    fun c hc => absurd hc (Option.not_mem_none c)
  rw [hcons, List.append_nil, List.map_cons] at hread
  have hdigit : (digit 16 c.toUpper).isSome = true := by
    obtain ⟨d, hd, rfl⟩ := mem_toDigits (b := 16) (by decide) (hcons ▸ List.mem_cons_self)
    rw [digit_written writes_upper (Nat.le_refl 16) hd]
    rfl
  have hbase : numberBase (hexUpper n) = (16, c.toUpper :: cs.map Char.toUpper) := by
    rw [hexUpper, hcons, List.map_cons, numberBase, if_pos ⟨.inl rfl, hdigit⟩]
  have hplus : (hexUpper n).head? ≠ some '+' := by
    rw [hexUpper, List.head?_cons]
    decide
  rw [kstrtoull]
  simp only [if_neg hplus, hbase, hread]
  exact if_pos ⟨List.cons_ne_nil _ _ |>.symm, .inl trivial, h⟩

theorem probe_hexUpper (g : MemoryGuest) (addr : UInt64) (added : List Nat) :
    (g.Takes added addr →
      probe g (hexUpper addr.toNat) added = (.ok (), added ++ [addr.toNat])) ∧
      (¬ g.Takes added addr → ∃ e, probe g (hexUpper addr.toNat) added = (.err e, added)) := by
  have hread := kstrtoull_hexUpper addr.toNat_lt
  rw [probe, hread]
  constructor
  · intro ⟨hc, hb, hr⟩
    rw [hc]
    dsimp only
    rw [if_neg (not_not.2 hb), hr]
  · intro hno
    cases hc : g.create with
    | some e => exact ⟨_, rfl⟩
    | none =>
      dsimp only
      split
      · exact ⟨_, rfl⟩
      · rename_i hb
        cases hr : g.refused added addr.toNat with
        | some e => exact ⟨_, rfl⟩
        | none => exact absurd ⟨hc, not_not.1 hb, hr⟩ hno

/-- No block is added twice. -/
theorem MemoryGuest.Adds.nodup {added : List Nat} {taken rest : List UInt64}
    (h : g.Adds added taken rest) (hn : added.Nodup) : (added ++ taken.map UInt64.toNat).Nodup := by
  induction h with
  | all => rwa [List.map_nil, List.append_nil]
  | stop hno => rwa [List.map_nil, List.append_nil]
  | @next added addr taken rest ht _ ih =>
    have hnew : addr.toNat ∉ added := by
      intro hin
      have hsome := g.refused_added added addr.toNat hin
      rw [ht.2.2] at hsome
      cases hsome
    have hone : (added ++ [addr.toNat]).Nodup := by
      apply hn.append (List.nodup_singleton _)
      exact List.disjoint_singleton.2 hnew
    rw [List.map_cons, List.append_cons]
    exact ih hone

/-- The blocks are added at the addresses of the request, in order, up to the first that does not
take one, which the request does not get past. No block is added twice. -/
theorem doMemHotplugByProbe_adds (g : MemoryGuest) (addrs : List UInt64) (added : List Nat) :
    ∃ taken rest, addrs = taken ++ rest ∧ g.Adds added taken rest ∧
      (doMemHotplugByProbe g addrs added).2 = added ++ taken.map UInt64.toNat ∧
      ((doMemHotplugByProbe g addrs added).1 = .ok () ↔ rest = []) ∧
      (added.Nodup → (doMemHotplugByProbe g addrs added).2.Nodup) := by
  have hrun : ∃ taken rest, addrs = taken ++ rest ∧ g.Adds added taken rest ∧
      (doMemHotplugByProbe g addrs added).2 = added ++ taken.map UInt64.toNat ∧
      ((doMemHotplugByProbe g addrs added).1 = .ok () ↔ rest = []) := by
    induction addrs generalizing added with
    | nil => exact ⟨[], [], rfl, .all, (List.append_nil added).symm, iff_of_true rfl rfl⟩
    | cons addr addrs ih =>
      rw [doMemHotplugByProbe, List.forM_eq_forM, List.forM_cons]
      by_cases ht : g.Takes added addr
      · obtain ⟨taken, rest, hsplit, hadds, hlist, hok⟩ := ih (added ++ [addr.toNat])
        rw [Act.bind_ok ((probe_hexUpper g addr added).1 ht)]
        rw [List.append_assoc] at hlist
        refine ⟨addr :: taken, rest, ?_, .next ht hadds, hlist, hok⟩
        rw [hsplit, List.cons_append]
      · obtain ⟨e, he⟩ := (probe_hexUpper g addr added).2 ht
        rw [Act.bind_err he]
        exact ⟨[], addr :: addrs, rfl, .stop ht, (List.append_nil added).symm,
          iff_of_false nofun (List.cons_ne_nil _ _)⟩
  obtain ⟨taken, rest, hsplit, hadds, hlist, hok⟩ := hrun
  refine ⟨taken, rest, hsplit, hadds, hlist, hok, fun hn => ?_⟩
  rw [hlist]
  exact hadds.nodup hn

theorem trim_newline {cs : Chars} (h : ∀ c ∈ cs, isWhitespace c = false) :
    trim (cs ++ ['\n']) = cs := by
  have htrim := trim_of_all h
  cases cs with
  | nil => decide
  | cons c cs =>
    have hc := Bool.eq_false_iff.1 (h c List.mem_cons_self)
    rw [trim, List.dropWhile_cons_of_neg hc] at htrim
    rw [trim, List.cons_append, List.dropWhile_cons_of_neg hc, ← List.cons_append,
      List.reverse_append, List.reverse_singleton, List.singleton_append,
      List.dropWhile_cons_of_pos (by decide), htrim]

theorem hexLower_ne_nil (n : Nat) : hexLower n ≠ [] := Nat.toDigits_ne_nil

theorem hexLower_not_whitespace {n : Nat} {c : Char} (h : c ∈ hexLower n) :
    isWhitespace c = false ∧ c ≠ '+' := by
  obtain ⟨d, hd, rfl⟩ := mem_toDigits (b := 16) (by decide) h
  interval_cases d <;> decide

theorem parseU64_digits {cs : Chars} (hne : cs ≠ []) (hc : ∀ c ∈ cs, c.isDigit = true)
    (hlt : decimalValue cs < 2 ^ 64) : parseU64 cs = .ok (UInt64.ofNat (decimalValue cs)) := by
  have hgo := parseU64_go_digits (n := 0) hc hlt
  cases cs with
  | nil => exact absurd rfl hne
  | cons c cs =>
    have hplus : c ≠ '+' := by
      rintro rfl
      exact absurd (hc '+' List.mem_cons_self) (by decide)
    rw [parseU64]
    · exact hgo
    · exact List.cons_ne_nil _ _
    · intro h
      exact hplus (List.cons.inj h).1
    · intro digits h
      exact hplus (List.cons.inj h).1

theorem parseU64_go_err {cs : Chars} (h : ∃ c ∈ cs, c.isDigit = false) (n : Nat) :
    ∃ e, parseU64.go n cs = .err e := by
  induction cs generalizing n with
  | nil =>
    obtain ⟨c, hc, -⟩ := h
    exact absurd hc List.not_mem_nil
  | cons c cs ih =>
    rw [parseU64.go]
    split
    · rename_i hdigit
      dsimp only
      split
      · obtain ⟨x, hx, hxd⟩ := h
        rcases List.mem_cons.1 hx with rfl | hx
        · cases hdigit.symm.trans hxd
        · exact ih ⟨x, hx, hxd⟩ _
      · exact ⟨_, rfl⟩
    · exact ⟨_, rfl⟩

theorem parseU64_err {cs : Chars} (h : ∃ c ∈ cs, c.isDigit = false) (hplus : ∀ c ∈ cs, c ≠ '+') :
    ∃ e, parseU64 cs = .err e := by
  obtain ⟨e, he⟩ := parseU64_go_err h 0
  refine ⟨e, ?_⟩
  cases cs with
  | nil =>
    obtain ⟨c, hc, -⟩ := h
    exact absurd hc List.not_mem_nil
  | cons c cs =>
    have hc := hplus c List.mem_cons_self
    rw [parseU64]
    · exact he
    · exact List.cons_ne_nil _ _
    · intro h
      exact hc (List.cons.inj h).1
    · intro digits h
      exact hc (List.cons.inj h).1

/-- What the digits of base 16 stand for in base 10, where they are all digits of it. -/
theorem decimalValue_hexLower {n : Nat} (h : ∀ c ∈ hexLower n, c.isDigit = true) :
    decimalValue (hexLower n) ≤ n ∧ (decimalValue (hexLower n) = n ↔ n < 10) := by
  induction n using Nat.strong_induction_on with
  | _ n ih =>
    rw [hexLower, Nat.toDigits_eq_if (by decide)] at h ⊢
    split at h
    · rename_i hlt
      rw [if_pos hlt]
      have hdigit := h n.digitChar List.mem_cons_self
      have hten : n < 10 := by
        by_contra hten
        interval_cases n <;> cases hdigit
      have hvalue : decimalValue [n.digitChar] = n := by
        interval_cases n <;> rfl
      rw [hvalue]
      exact ⟨Nat.le_refl n, iff_of_true rfl hten⟩
    · rename_i hle
      rw [if_neg hle]
      have hfront := ih (n / 16) (by omega) fun c hc => h c (List.mem_append_left _ hc)
      have hlast := h (n % 16).digitChar (List.mem_append_right _ List.mem_cons_self)
      have hmod : n % 16 < 16 := Nat.mod_lt n (by decide)
      have hten : n % 16 < 10 := by
        by_contra hten
        generalize n % 16 = m at hlast hmod hten
        interval_cases m <;> cases hlast
      have hvalue : decimalValue (Nat.toDigits 16 (n / 16) ++ [(n % 16).digitChar]) =
          10 * decimalValue (hexLower (n / 16)) + n % 16 := by
        rw [decimalValue, Nat.ofDigitChars_append, Nat.ofDigitChars_cons_digitChar_of_lt_ten hten,
          Nat.ofDigitChars_nil]
        rfl
      rw [hvalue]
      omega

theorem memoryBlockSize_hex {size : UInt64}
    (h : g.blockSizeFile = .ok (hexLower size.toNat ++ ['\n'])) :
    memoryBlockSize g = parseU64 (hexLower size.toNat) := by
  have hne : hexLower size.toNat ++ ['\n'] ≠ [] :=
    List.append_ne_nil_of_left_ne_nil (hexLower_ne_nil size.toNat) _
  rw [memoryBlockSize, h]
  dsimp only
  rw [if_neg hne, trim_newline fun c hc => (hexLower_not_whitespace hc).1]

/-- The size that is read: it is read as decimal, which the kernel's text is not. -/
theorem memoryBlockSize_told {size told : UInt64}
    (h : g.blockSizeFile = .ok (hexLower size.toNat ++ ['\n']))
    (hdigits : ∀ c ∈ hexLower size.toNat, c.isDigit = true) (ht : memoryBlockSize g = .ok told) :
    told ≤ size ∧ (told = size ↔ size < 10) := by
  obtain ⟨hle, heq⟩ := decimalValue_hexLower hdigits
  have hlt : decimalValue (hexLower size.toNat) < 2 ^ 64 := Nat.lt_of_le_of_lt hle size.toNat_lt
  have hparse := parseU64_digits (hexLower_ne_nil size.toNat) hdigits hlt
  rw [memoryBlockSize_hex h, hparse] at ht
  have htold : told.toNat = decimalValue (hexLower size.toNat) := by
    rw [← Outcome.ok.inj ht, UInt64.toNat_ofNat_of_lt' hlt]
  refine ⟨UInt64.le_iff_toNat_le.2 (htold ▸ hle), ?_⟩
  rw [← UInt64.toNat_inj, htold, heq, UInt64.lt_iff_toNat_lt]
  rfl

theorem memoryBlockSize_ok {size : UInt64}
    (h : g.blockSizeFile = .ok (hexLower size.toNat ++ ['\n'])) :
    (∃ v, memoryBlockSize g = .ok v) ↔ ∀ c ∈ hexLower size.toNat, c.isDigit = true := by
  rw [memoryBlockSize_hex h]
  constructor
  · rintro ⟨v, hv⟩ c hc
    by_contra hno
    obtain ⟨e, he⟩ := parseU64_err ⟨c, hc, Bool.eq_false_of_not_eq_true hno⟩
      fun x hx => (hexLower_not_whitespace hx).2
    cases hv.symm.trans he
  · intro hdigits
    have hlt := Nat.lt_of_le_of_lt (decimalValue_hexLower hdigits).1 size.toNat_lt
    exact ⟨_, parseU64_digits (hexLower_ne_nil size.toNat) hdigits hlt⟩

theorem getMemoryInfo_eq_ok {r : UInt64 × Bool} {hotplug : Bool} :
    getMemoryInfo g true hotplug = .ok r ↔ memoryBlockSize g = .ok r.1 ∧
      (if hotplug then hotplugProbe g else .ok false) = .ok r.2 := by
  rw [getMemoryInfo, if_pos rfl, Outcome.bind_eq_ok]
  constructor
  · rintro ⟨size, hs, h⟩
    obtain ⟨plug, hp, h⟩ := Outcome.bind_eq_ok.1 h
    cases h
    exact ⟨hs, hp⟩
  · rintro ⟨hs, hp⟩
    exact ⟨r.1, hs, Outcome.bind_eq_ok.2 ⟨r.2, hp, rfl⟩⟩

theorem hotplugProbe_eq (hp : hotplugProbe g = .ok p) : p = true ↔ g.stat = none := by
  rw [hotplugProbe] at hp
  split at hp
  · rename_i hs
    cases hp
    exact iff_of_true rfl hs
  · rename_i hs
    cases hp
    refine iff_of_false Bool.false_ne_true fun h => ?_
    cases hs.symm.trans h
  · cases hp

theorem hotplugProbe_ok :
    (∃ p, hotplugProbe g = .ok p) ↔ g.stat = none ∨ g.stat = some .ENOENT := by
  rw [hotplugProbe]
  split
  · rename_i hs
    exact iff_of_true ⟨true, rfl⟩ (.inl hs)
  · rename_i hs
    exact iff_of_true ⟨false, rfl⟩ (.inr hs)
  · rename_i e hne hs
    refine iff_of_false nofun ?_
    rintro (h | h)
    · cases hs.symm.trans h
    · exact hne (Option.some.inj (hs.symm.trans h))

/-- The host is told of a block size just when its text has decimal digits only, and of the right
one just below ten. -/
theorem getMemoryInfo_blockSize (g : MemoryGuest) (size : UInt64) (hotplug : Bool)
    (h : g.blockSizeFile = .ok (hexLower size.toNat ++ ['\n'])) :
    ((∃ r, getMemoryInfo g true hotplug = .ok r) ↔
        (∀ c ∈ hexLower size.toNat, c.isDigit = true) ∧
          (hotplug = true → g.stat = none ∨ g.stat = some .ENOENT)) ∧
      ∀ told plug, getMemoryInfo g true hotplug = .ok (told, plug) → told ≤ size ∧
        (told = size ↔ size < 10) ∧ (plug = true ↔ hotplug = true ∧ g.stat = none) := by
  constructor
  · rw [← memoryBlockSize_ok h]
    constructor
    · rintro ⟨r, hr⟩
      obtain ⟨hs, hp⟩ := getMemoryInfo_eq_ok.1 hr
      refine ⟨⟨r.1, hs⟩, fun hh => ?_⟩
      rw [if_pos hh] at hp
      exact hotplugProbe_ok.1 ⟨r.2, hp⟩
    · rintro ⟨⟨v, hv⟩, hstat⟩
      cases hotplug with
      | false => exact ⟨(v, false), getMemoryInfo_eq_ok.2 ⟨hv, rfl⟩⟩
      | true =>
        obtain ⟨p, hp⟩ := hotplugProbe_ok.2 (hstat rfl)
        exact ⟨(v, p), getMemoryInfo_eq_ok.2 ⟨hv, hp⟩⟩
  · intro told plug hr
    obtain ⟨hs, hp⟩ := getMemoryInfo_eq_ok.1 hr
    obtain ⟨hle, hten⟩ := memoryBlockSize_told h ((memoryBlockSize_ok h).1 ⟨told, hs⟩) hs
    refine ⟨hle, hten, ?_⟩
    cases hotplug with
    | false =>
      cases hp
      exact iff_of_false Bool.false_ne_true fun h => Bool.false_ne_true h.1
    | true => rw [hotplugProbe_eq hp, and_iff_right rfl]

/-- A kernel whose blocks have 128 MiB. -/
def largeBlocks : MemoryGuest where
  blockSizeFile := .ok "8000000\n".toList
  stat := none
  create := none
  block := 134217728
  refused added a := if a ∈ added then some "File exists (os error 17)" else none
  refused_added _ _ h := by
    rw [if_pos h]
    rfl

theorem getMemoryInfo_largeBlocks :
    getMemoryInfo largeBlocks true true = .ok (8000000, true) ∧
      (8000000 : UInt64) ≤ 134217728 ∧
        ((8000000 : UInt64) = 134217728 ↔ (134217728 : UInt64) < 10) := by
  have hr : getMemoryInfo largeBlocks true true = .ok (8000000, true) := rfl
  have h := (getMemoryInfo_blockSize largeBlocks 134217728 true rfl).2 8000000 true hr
  exact ⟨hr, h.1, h.2.1⟩

end KataAgent
