import Mathlib.Order.Defs.LinearOrder
import KataAgent.CgroupSetters

namespace KataAgent
open Fallible
set_option autoImplicit true

/-- The rules of the kernel for the two limits of a memory cgroup, for the meaning `value` of a
text. The limit may not go above the one that counts swap, and that one not below the limit. -/
structure MemoryRules [LinearOrder Λ] (g : ControlGuest) (dir : Chars) (value : Chars → Λ) :
    Prop where
  limit_refused : ∀ s memsw v, s (filePath dir MEMSW_LIMIT) = some memsw →
    ((g.refuses s (filePath dir MEMORY_LIMIT) v).isSome ↔ value memsw < value v)
  memsw_refused : ∀ s limit v, s (filePath dir MEMORY_LIMIT) = some limit →
    ((g.refuses s (filePath dir MEMSW_LIMIT) v).isSome ↔ value v < value limit)
  others : ∀ s file v, file ≠ MEMORY_LIMIT → file ≠ MEMSW_LIMIT →
    g.refuses s (filePath dir file) v = none
  stores : ∀ s file v, file = MEMORY_LIMIT ∨ file = MEMSW_LIMIT →
    value (g.stores s (filePath dir file) v) = value v

/-- Both limits are as requested. -/
def HasLimits (dir : Chars) (value : Chars → Λ) (memory : LinuxMemory) (s : Contents Chars) :
    Prop :=
  (s (filePath dir MEMORY_LIMIT)).map value = some (value (intText memory.limit)) ∧
    (s (filePath dir MEMSW_LIMIT)).map value = some (value (intText memory.swap))

/-- The computation succeeds and leaves the two limits alone. -/
def Aside (dir : Chars) (x : Setting Unit) : Prop := ∀ s, ∃ t, x s = (.ok (), t) ∧
  t (filePath dir MEMORY_LIMIT) = s (filePath dir MEMORY_LIMIT) ∧
  t (filePath dir MEMSW_LIMIT) = s (filePath dir MEMSW_LIMIT)

section
variable {g : ControlGuest} {dir file v : Chars} {forgiven : Errno → Bool} {s : Contents Chars}
  {x y : Setting Unit}

theorem filePath_inj {file' : Chars} : filePath dir file = filePath dir file' ↔ file = file' := by
  rw [filePath, filePath, List.append_cancel_left_eq, List.cons.injEq]
  exact ⟨fun h => h.2, fun h => ⟨rfl, h⟩⟩

theorem write_accepted (h : g.refuses s (filePath dir file) v = none) :
    g.write dir file forgiven v s = (.ok (), Function.update s (filePath dir file)
      (some (g.stores s (filePath dir file) v))) := by
  rw [ControlGuest.write, h]

theorem setIf_pos {c : Prop} [Decidable c] (h : c) : setIf c x = x := if_pos h

theorem Aside.pure : Aside dir (pure ()) := fun s => ⟨s, rfl, rfl, rfl⟩

theorem Aside.bind (hx : Aside dir x) (hy : Aside dir y) : Aside dir (x >>= fun _ => y) := by
  intro s
  obtain ⟨t, hs, hlimit, hmemsw⟩ := hx s
  obtain ⟨u, ht, hlimit', hmemsw'⟩ := hy t
  exact ⟨u, by rw [Act.bind_ok hs, ht], hlimit'.trans hlimit, hmemsw'.trans hmemsw⟩

theorem Aside.setIf {c : Prop} [Decidable c] (hx : Aside dir x) : Aside dir (setIf c x) := by
  rw [KataAgent.setIf]
  by_cases h : c
  · rw [if_pos h]
    exact hx
  · rw [if_neg h]
    exact .pure

variable {Λ : Type} [LinearOrder Λ] {value : Chars → Λ}

theorem MemoryRules.aside (hk : MemoryRules g dir value) (hlimit : file ≠ MEMORY_LIMIT)
    (hmemsw : file ≠ MEMSW_LIMIT) : Aside dir (g.write dir file forgiven v) := by
  intro s
  refine ⟨_, write_accepted (hk.others s file v hlimit hmemsw), ?_, ?_⟩
  · exact Function.update_of_ne (mt filePath_inj.1 hlimit.symm) _ _
  · exact Function.update_of_ne (mt filePath_inj.1 hmemsw.symm) _ _

/-- The setter of an update is two writes with others around them. -/
theorem Memory.set_update (hk : MemoryRules g dir value) {r : CgroupResources}
    {memory : LinuxMemory} (hr : r.memory = some memory) (hl : memory.limit ≠ 0)
    (hw : memory.swap ≠ 0) :
    ∃ x y, Aside dir x ∧ Aside dir y ∧ Memory.set g dir r true = (do
      writeFile g dir MEMORY_LIMIT (intText memory.limit)
      x
      g.write dir MEMSW_LIMIT permissionDenied (intText memory.swap)
      y) := by
  have hfile {file : Chars} (h : file ≠ MEMORY_LIMIT) (h' : file ≠ MEMSW_LIMIT)
      (forgiven : Errno → Bool) (v : Chars) : Aside dir (g.write dir file forgiven v) :=
    hk.aside h h'
  refine ⟨writeNonzero g dir MEMORY_SOFT_LIMIT memory.reservation, (do
    tryWriteNonzero g dir KMEM_LIMIT memory.kernel
    writeNonzero g dir KMEM_TCP_LIMIT memory.kernelTCP
    setIf (memory.swappiness ≤ 100) (writeFile g dir SWAPPINESS (decimalText memory.swappiness))
    setIf (memory.disableOOMKiller = true) (writeFile g dir OOM_CONTROL ['1'])), ?_, ?_, ?_⟩
  · exact .setIf (hfile (by decide) (by decide) _ _)
  · apply Aside.bind
    · exact .setIf (hfile (by decide) (by decide) _ _)
    apply Aside.bind
    · exact .setIf (hfile (by decide) (by decide) _ _)
    apply Aside.bind
    · exact .setIf (hfile (by decide) (by decide) _ _)
    · exact .setIf (hfile (by decide) (by decide) _ _)
  · rw [Memory.set, hr]
    dsimp only
    rw [writeNonzero, setIf_pos hl, tryWriteNonzero, setIf_pos hw]
    rfl

theorem Memory.set_limits (hk : MemoryRules g dir value) {r : CgroupResources}
    {memory : LinuxMemory} (hr : r.memory = some memory) (hl : memory.limit ≠ 0)
    (hw : memory.swap ≠ 0) (hle : value (intText memory.limit) ≤ value (intText memory.swap))
    {memsw : Chars} (hs : s (filePath dir MEMSW_LIMIT) = some memsw)
    (h : value (intText memory.limit) ≤ value memsw) :
    ∃ t, Memory.set g dir r true s = (.ok (), t) ∧ HasLimits dir value memory t := by
  obtain ⟨x, y, hx, hy, heq⟩ := Memory.set_update hk hr hl hw
  have hne : filePath dir MEMSW_LIMIT ≠ filePath dir MEMORY_LIMIT :=
    mt filePath_inj.1 (by decide)
  have hfirst : g.refuses s (filePath dir MEMORY_LIMIT) (intText memory.limit) = none := by
    rw [← Option.not_isSome_iff_eq_none, hk.limit_refused s memsw _ hs]
    exact not_lt.2 h
  obtain ⟨t, hxt, hlimit, -⟩ := hx (Function.update s (filePath dir MEMORY_LIMIT)
    (some (g.stores s (filePath dir MEMORY_LIMIT) (intText memory.limit))))
  rw [Function.update_self] at hlimit
  have hvalue := hk.stores s MEMORY_LIMIT (intText memory.limit) (.inl rfl)
  have hsecond : g.refuses t (filePath dir MEMSW_LIMIT) (intText memory.swap) = none := by
    rw [← Option.not_isSome_iff_eq_none, hk.memsw_refused t _ _ hlimit, hvalue]
    exact not_lt.2 hle
  obtain ⟨u, hyu, hlimit', hmemsw'⟩ := hy (Function.update t (filePath dir MEMSW_LIMIT)
    (some (g.stores t (filePath dir MEMSW_LIMIT) (intText memory.swap))))
  rw [Function.update_of_ne hne.symm, hlimit] at hlimit'
  rw [Function.update_self] at hmemsw'
  refine ⟨u, ?_, ?_, ?_⟩
  · rw [heq, writeFile, Act.bind_ok (write_accepted hfirst), Act.bind_ok hxt,
      Act.bind_ok (write_accepted hsecond), hyu]
  · rw [hlimit', Option.map_some, hvalue]
  · rw [hmemsw', Option.map_some, hk.stores t MEMSW_LIMIT _ (.inr rfl)]

theorem Memory.set_refused (hk : MemoryRules g dir value) {r : CgroupResources}
    {memory : LinuxMemory} (hr : r.memory = some memory) (hl : memory.limit ≠ 0)
    (hw : memory.swap ≠ 0) {memsw : Chars} (hs : s (filePath dir MEMSW_LIMIT) = some memsw)
    (h : value memsw < value (intText memory.limit)) :
    ∃ e, Memory.set g dir r true s = (.err e, s) := by
  obtain ⟨x, y, -, -, heq⟩ := Memory.set_update hk hr hl hw
  obtain ⟨e, he⟩ := Option.isSome_iff_exists.1 ((hk.limit_refused s memsw _ hs).2 h)
  have hfirst : writeFile g dir MEMORY_LIMIT (intText memory.limit) s =
      (.err (.io (g.strerror e)), s) := by
    rw [writeFile, ControlGuest.write, he]
    rfl
  exact ⟨_, by rw [heq, Act.bind_err hfirst]⟩

end

/-- An update leaves the limits that it requests exactly if the requested limit is not above the
limit with swap that is there already. -/
theorem memoryLimits_iff {Λ : Type} [LinearOrder Λ] (g : ControlGuest) (dir : Chars)
    (value : Chars → Λ) (hk : MemoryRules g dir value) (s : Contents Chars) (memsw : Chars)
    (hs : s (filePath dir MEMSW_LIMIT) = some memsw) (r : CgroupResources) (memory : LinuxMemory)
    (hr : r.memory = some memory) (hl : memory.limit ≠ 0) (hw : memory.swap ≠ 0)
    (hle : value (intText memory.limit) ≤ value (intText memory.swap)) :
    (∃ t, Memory.set g dir r true s = (.ok (), t) ∧ HasLimits dir value memory t) ↔
      value (intText memory.limit) ≤ value memsw := by
  constructor
  · intro ⟨t, ht, _⟩
    by_contra h
    obtain ⟨e, he⟩ := Memory.set_refused hk hr hl hw hs (not_le.1 h)
    cases he.symm.trans ht
  · exact Memory.set_limits hk hr hl hw hle hs

/-- The number of bytes that a text means to a kernel with pages of 4 KiB. -/
def limitBytes (cs : Chars) : Nat :=
  if cs = ['-', '1'] then 9223372036854771712 else decimalValue cs

/-- A kernel with one memory cgroup, which refuses nothing but wrong limits. -/
def memoryKernel (dir : Chars) : ControlGuest where
  unreadable _ _ := none
  refuses s p v :=
    if p = filePath dir MEMORY_LIMIT then
      if (s (filePath dir MEMSW_LIMIT)).any (fun w => limitBytes w < limitBytes v) then some .EINVAL
      else none
    else if p = filePath dir MEMSW_LIMIT then
      if (s (filePath dir MEMORY_LIMIT)).any (fun l => limitBytes v < limitBytes l) then
        some .EINVAL
      else none
    else none
  stores _ _ v := v
  makes _ s := s
  strerror _ := "Invalid argument (os error 22)"
  stack := 64
  makes_keeps _ _ _ _ h := h

theorem memoryKernel_rules (dir : Chars) : MemoryRules (memoryKernel dir) dir limitBytes where
  limit_refused s memsw v h := by
    rw [memoryKernel]
    dsimp only
    rw [if_pos rfl, h, Option.any_some]
    by_cases hlt : limitBytes memsw < limitBytes v
    · simp [hlt]
    · simp [hlt]
  memsw_refused s limit v h := by
    rw [memoryKernel]
    dsimp only
    rw [if_neg (mt filePath_inj.1 (by decide)), if_pos rfl, h, Option.any_some]
    by_cases hlt : limitBytes v < limitBytes limit
    · simp [hlt]
    · simp [hlt]
  others s file v h h' := by
    rw [memoryKernel]
    dsimp only
    rw [if_neg (mt filePath_inj.1 h), if_neg (mt filePath_inj.1 h')]
  stores _ _ _ _ := rfl

/-- Both limits at 1 MiB. -/
def memoryFiles (p : Chars) : Option Chars :=
  if p = filePath "/m".toList MEMORY_LIMIT ∨ p = filePath "/m".toList MEMSW_LIMIT then
    some "1048576".toList
  else none

/-- A request for both limits, with the other fields at their defaults. -/
def limitRequest (limit : Int) : LinuxMemory := ⟨limit, 0, limit, 0, 0, 0, false⟩

def limitResources (limit : Int) : CgroupResources :=
  ⟨⟨[]⟩, some (limitRequest limit), none, none, none, [], none⟩

theorem memoryLimits_shrink : ∃ t,
    Memory.set (memoryKernel "/m".toList) "/m".toList (limitResources 4096) true memoryFiles =
      (.ok (), t) ∧ HasLimits "/m".toList limitBytes (limitRequest 4096) t :=
  (memoryLimits_iff (memoryKernel "/m".toList) "/m".toList limitBytes (memoryKernel_rules _)
    memoryFiles "1048576".toList (by decide) (limitResources 4096) (limitRequest 4096) rfl
    (by decide) (by decide) (Nat.le_refl _)).2 (by decide)

/-- Both limits grow to 2 MiB: the first write is refused. -/
theorem memoryLimits_grow : ¬ ∀ (g : ControlGuest) (dir : Chars) (value : Chars → Nat),
    MemoryRules g dir value → ∀ (s : Contents Chars) (limit memsw : Chars),
    s (filePath dir MEMORY_LIMIT) = some limit → s (filePath dir MEMSW_LIMIT) = some memsw →
    value limit ≤ value memsw → ∀ (r : CgroupResources) (memory : LinuxMemory),
    r.memory = some memory → memory.limit ≠ 0 → memory.swap ≠ 0 →
    value (intText memory.limit) ≤ value (intText memory.swap) →
    ∃ t, Memory.set g dir r true s = (.ok (), t) ∧ HasLimits dir value memory t := by
  intro h
  obtain ⟨t, ht, -⟩ := h (memoryKernel "/m".toList) "/m".toList limitBytes (memoryKernel_rules _)
    memoryFiles "1048576".toList "1048576".toList (by decide) (by decide) (Nat.le_refl _)
    (limitResources 2097152) (limitRequest 2097152) rfl (by decide) (by decide) (Nat.le_refl _)
  have hmemsw : memoryFiles (filePath "/m".toList MEMSW_LIMIT) = some "1048576".toList := by decide
  have hrequest : (limitResources 2097152).memory = some (limitRequest 2097152) := rfl
  obtain ⟨e, he⟩ := Memory.set_refused (memoryKernel_rules "/m".toList) hrequest (by decide)
    (by decide) hmemsw (by decide)
  cases he.symm.trans ht

end KataAgent
