import KataAgent.Validator

namespace KataAgent
open Fallible
set_option autoImplicit true

/-- The id is in the mapped range, over the natural numbers. -/
def Maps (m : Grpc.LinuxIDMapping) (id : UInt32) : Prop :=
  m.containerID.toNat ≤ id.toNat ∧ id.toNat < m.containerID.toNat + m.size.toNat

instance (m : Grpc.LinuxIDMapping) (id : UInt32) : Decidable (Maps m id) :=
  inferInstanceAs (Decidable (_ ∧ _))

def IdOption (opt : String) : Prop := startsWith opt "uid=" ∨ startsWith opt "gid="

instance (opt : String) : Decidable (IdOption opt) := inferInstanceAs (Decidable (_ ∨ _))

/-- The number of the option, if it is well formed. -/
def optionId (opt : String) : Option UInt32 :=
  match opt.toList.splitOn '=' with
  | [_, value] =>
    match parseU32 (trim value) with
    | .ok id => some id
    | _ => none
  | _ => none

/-- The mappings of the option's kind. -/
def mappingsOf (linux : Grpc.Linux) (opt : String) : List Grpc.LinuxIDMapping :=
  if startsWith opt "uid=" then linux.uidMappings else linux.gidMappings

/-- An option that names an id names one that is mapped. -/
def OptionMapped (linux : Grpc.Linux) (opt : String) : Prop :=
  IdOption opt → ∃ id, optionId opt = some id ∧ ∃ m ∈ mappingsOf linux opt, Maps m id

/-- The upper bounds fit that the search for the id computes: those of the mappings that start at
the id or below it, up to the first one that contains it. -/
def SearchFits (id : UInt32) : List Grpc.LinuxIDMapping → Prop
  | [] => True
  | m :: ms =>
    (m.containerID.toNat ≤ id.toNat → m.containerID.toNat + m.size.toNat < 2 ^ 32) ∧
      (¬ Maps m id → SearchFits id ms)

def OptionFits (linux : Grpc.Linux) (opt : String) : Prop :=
  IdOption opt → ∀ id, optionId opt = some id → SearchFits id (mappingsOf linux opt)

/-- The bounds fit for the options up to the first one that is not mapped. -/
def OptionsFit (linux : Grpc.Linux) : List String → Prop
  | [] => True
  | opt :: opts => OptionFits linux opt ∧ (OptionMapped linux opt → OptionsFit linux opts)

def mountOptions (oci : Grpc.Spec) : List String := oci.mounts.flatMap Grpc.Mount.options

section
variable {checks : Bool} {id : UInt32} {maps : List Grpc.LinuxIDMapping} {m : Grpc.LinuxIDMapping}
  {linux : Grpc.Linux} {opt : String} {opts : List String}

theorem addU32_fits {a b : UInt32} (h : a.toNat + b.toNat < 2 ^ 32) :
    addU32 checks a b = .ok (a + b) ∧ (a + b).toNat = a.toNat + b.toNat := by
  constructor
  · rw [addU32, if_neg fun hc => absurd h (Nat.not_lt.2 hc.2)]
    rfl
  · rw [UInt32.toNat_add, Nat.mod_eq_of_lt h]

theorem hasIdmapping_cons_fits (hle : m.containerID.toNat ≤ id.toNat)
    (h : m.containerID.toNat + m.size.toNat < 2 ^ 32) :
    hasIdmapping checks id (m :: maps) =
      if Maps m id then .ok true else hasIdmapping checks id maps := by
  obtain ⟨hadd, hnat⟩ : addU32 checks m.containerID m.size = .ok (m.containerID + m.size) ∧ _ :=
    addU32_fits h
  rw [hasIdmapping, if_pos (UInt32.le_iff_toNat_le.2 hle), hadd, Outcome.ok_bind]
  by_cases hm : Maps m id
  · rw [if_pos hm, if_pos (UInt32.lt_iff_toNat_lt.2 (hnat.symm ▸ hm.2))]
    rfl
  · rw [if_neg hm, if_neg]
    intro hlt
    exact hm ⟨hle, hnat ▸ UInt32.lt_iff_toNat_lt.1 hlt⟩

theorem hasIdmapping_cons_above (hle : ¬ m.containerID.toNat ≤ id.toNat) :
    hasIdmapping checks id (m :: maps) = hasIdmapping checks id maps := by
  rw [hasIdmapping, if_neg fun h => hle (UInt32.le_iff_toNat_le.1 h)]

/-- While the bounds fit, the search finds what is mapped. -/
theorem hasIdmapping_of_fits (h : SearchFits id maps) :
    hasIdmapping checks id maps = .ok (decide (∃ m ∈ maps, Maps m id)) := by
  induction maps with
  | nil => rfl
  | cons m maps ih =>
    obtain ⟨hbound, hrest⟩ := h
    have hskip (hm : ¬ Maps m id) : decide (∃ n ∈ m :: maps, Maps n id) =
        decide (∃ n ∈ maps, Maps n id) := by
      simp only [List.mem_cons, exists_eq_or_imp, hm, false_or]
    by_cases hle : m.containerID.toNat ≤ id.toNat
    · rw [hasIdmapping_cons_fits hle (hbound hle)]
      by_cases hm : Maps m id
      · rw [if_pos hm, decide_eq_true ⟨m, List.mem_cons_self, hm⟩]
      · rw [if_neg hm, ih (hrest hm), hskip hm]
    · have hm : ¬ Maps m id := fun hm => hle hm.1
      rw [hasIdmapping_cons_above hle, ih (hrest hm), hskip hm]

/-- A bound that does not fit stops a build that checks for it. -/
theorem hasIdmapping_ne_panic : hasIdmapping true id maps ≠ .panic ↔ SearchFits id maps := by
  induction maps with
  | nil => exact iff_of_true nofun trivial
  | cons m maps ih =>
    rw [SearchFits]
    by_cases hle : m.containerID.toNat ≤ id.toNat
    · by_cases hbound : m.containerID.toNat + m.size.toNat < 2 ^ 32
      · rw [hasIdmapping_cons_fits hle hbound, and_iff_right fun _ => hbound]
        by_cases hm : Maps m id
        · rw [if_pos hm]
          exact iff_of_true nofun fun hno => absurd hm hno
        · rw [if_neg hm, ih]
          exact ⟨fun h _ => h, fun h => h hm⟩
      · have hpanic : hasIdmapping true id (m :: maps) = .panic := by
          rw [hasIdmapping, if_pos (UInt32.le_iff_toNat_le.2 hle), addU32,
            if_pos ⟨rfl, Nat.not_lt.1 hbound⟩, Outcome.panic_bind]
        exact iff_of_false (not_not_intro hpanic) fun h => hbound (h.1 hle)
    · have hm : ¬ Maps m id := fun hm => hle hm.1
      rw [hasIdmapping_cons_above hle, ih, and_iff_right fun h => absurd h hle]
      exact ⟨fun h _ => h, fun h => h hm⟩

theorem parseUnsigned_go_ne_panic (bound n : Nat) (cs : List Char) :
    parseUnsigned.go bound n cs ≠ .panic := by
  induction cs generalizing n with
  | nil => exact nofun
  | cons c cs ih =>
    rw [parseUnsigned.go]
    by_cases hdigit : c.isDigit = true
    · rw [if_pos hdigit]
      split
      · exact ih _
      · exact nofun
    · rw [if_neg hdigit]
      exact nofun

theorem parseU32_ne_panic (cs : List Char) : parseU32 cs ≠ .panic := by
  apply Outcome.bind_ne_panic
  · rw [parseUnsigned.eq_def]
    split
    · exact nofun
    · exact nofun
    · exact parseUnsigned_go_ne_panic _ _ _
    · exact parseUnsigned_go_ne_panic _ _ _
  · exact fun _ => nofun

theorem not_uid_and_gid (hu : startsWith opt "uid=") : ¬ startsWith opt "gid=" := by
  intro hg
  obtain ⟨r, hr⟩ := hu
  obtain ⟨s, hs⟩ := hg
  cases hr.trans hs.symm

/-- An option of an id is looked up among the mappings of its kind. -/
theorem rootlessOption_eq (h : IdOption opt) : rootlessOption checks linux opt =
    match opt.toList.splitOn '=' with
    | [_, value] => do
      let id ← parseU32 (trim value)
      let found ← hasIdmapping checks id (mappingsOf linux opt)
      if !found then invalid else return ()
    | _ => invalid := by
  have hopt : startsWith opt "uid=" ∨ startsWith opt "gid=" := h
  rw [rootlessOption, if_pos hopt, mappingsOf]
  generalize opt.toList.splitOn '=' = fields
  by_cases hu : startsWith opt "uid="
  · simp only [if_pos hu, if_neg (not_uid_and_gid hu)]
    rfl
  · have hg : startsWith opt "gid=" := hopt.resolve_left hu
    simp only [if_pos hg, if_neg hu]
    rfl

theorem rootlessOption_of_id (h : IdOption opt) (hid : optionId opt = some id) :
    rootlessOption checks linux opt = do
      let found ← hasIdmapping checks id (mappingsOf linux opt)
      if !found then invalid else return () := by
  rw [rootlessOption_eq h]
  rw [optionId] at hid
  split at hid
  · cases hparse : parseU32 (trim _) with
    | ok n =>
      rw [hparse] at hid
      cases hid
      rfl
    | err e =>
      rw [hparse] at hid
      cases hid
    | panic =>
      rw [hparse] at hid
      cases hid
  · cases hid

theorem rootlessOption_malformed (h : IdOption opt) (hid : optionId opt = none) :
    ∃ e, rootlessOption checks linux opt = .err e := by
  rw [rootlessOption_eq h]
  rw [optionId] at hid
  split at hid
  · cases hparse : parseU32 (trim _) with
    | ok n =>
      rw [hparse] at hid
      cases hid
    | err e => exact ⟨e, rfl⟩
    | panic => exact absurd hparse (parseU32_ne_panic _)
  · exact ⟨_, rfl⟩

theorem rootlessOption_other (h : ¬ IdOption opt) : rootlessOption checks linux opt = .ok () := by
  have hopt : ¬ (startsWith opt "uid=" ∨ startsWith opt "gid=") := h
  rw [rootlessOption, if_neg hopt]
  rfl

theorem rootlessOption_eq_ok (h : OptionFits linux opt) :
    rootlessOption checks linux opt = .ok () ↔ OptionMapped linux opt := by
  rw [OptionMapped]
  by_cases hopt : IdOption opt
  · cases hid : optionId opt with
    | none =>
      obtain ⟨e, he⟩ : ∃ e, rootlessOption checks linux opt = .err e :=
        rootlessOption_malformed hopt hid
      rw [he]
      apply iff_of_false nofun
      intro hmapped
      obtain ⟨id, hsome, -⟩ := hmapped hopt
      cases hsome
    | some id =>
      rw [rootlessOption_of_id hopt hid, hasIdmapping_of_fits (h hopt id hid), Outcome.ok_bind]
      by_cases hm : ∃ m ∈ mappingsOf linux opt, Maps m id
      · rw [decide_eq_true hm]
        exact iff_of_true rfl fun _ => ⟨id, rfl, hm⟩
      · rw [decide_eq_false hm]
        apply iff_of_false nofun
        intro hmapped
        obtain ⟨n, hn, hfound⟩ := hmapped hopt
        cases hn
        exact hm hfound
  · rw [rootlessOption_other hopt]
    exact iff_of_true rfl fun h => absurd h hopt

theorem rootlessOption_ne_panic :
    rootlessOption true linux opt ≠ .panic ↔ OptionFits linux opt := by
  rw [OptionFits]
  by_cases hopt : IdOption opt
  · cases hid : optionId opt with
    | none =>
      obtain ⟨e, he⟩ : ∃ e, rootlessOption true linux opt = .err e :=
        rootlessOption_malformed hopt hid
      rw [he]
      exact iff_of_true nofun fun _ _ h => by cases h
    | some id =>
      rw [rootlessOption_of_id hopt hid, Outcome.bind_ne_panic_iff, hasIdmapping_ne_panic]
      constructor
      · intro h _ n hn
        cases hn
        exact h.1
      · intro h
        apply And.intro (h hopt id rfl)
        intro found _
        cases found with
        | true => exact nofun
        | false => exact nofun
  · rw [rootlessOption_other hopt]
    exact iff_of_true nofun fun h => absurd h hopt

theorem rootlessEuidMount_eq {oci : Grpc.Spec} (h : oci.linux = some linux) :
    rootlessEuidMount checks oci = (mountOptions oci).forM (rootlessOption checks linux) := by
  rw [rootlessEuidMount, h, Outcome.ofUnwrap_some, Outcome.ok_bind, mountOptions]
  induction oci.mounts with
  | nil => rfl
  | cons mnt mounts ih =>
    have happend : (mnt.options ++ mounts.flatMap Grpc.Mount.options).forM
        (rootlessOption checks linux) = mnt.options.forM (rootlessOption checks linux) >>=
          fun _ => (mounts.flatMap Grpc.Mount.options).forM (rootlessOption checks linux) :=
      List.forM_append
    rw [List.flatMap_cons, happend, ← ih]
    rfl

/-- No bound that is computed overflows while the options are looked at. -/
theorem forM_ne_panic :
    opts.forM (rootlessOption true linux) ≠ .panic ↔ OptionsFit linux opts := by
  induction opts with
  | nil => exact iff_of_true nofun trivial
  | cons opt opts ih =>
    have hcons : (opt :: opts).forM (rootlessOption true linux) =
        rootlessOption true linux opt >>= fun _ => opts.forM (rootlessOption true linux) := rfl
    rw [hcons, Outcome.bind_ne_panic_iff, rootlessOption_ne_panic, OptionsFit]
    apply and_congr_right
    intro hfits
    rw [← ih]
    constructor
    · intro h hmapped
      exact h () ((rootlessOption_eq_ok hfits).2 hmapped)
    · intro h u hok
      exact h ((rootlessOption_eq_ok hfits).1 hok)

theorem forM_eq_ok (h : OptionsFit linux opts) :
    opts.forM (rootlessOption checks linux) = .ok () ↔ ∀ opt ∈ opts, OptionMapped linux opt := by
  induction opts with
  | nil => exact iff_of_true rfl nofun
  | cons opt opts ih =>
    obtain ⟨hfits, hrest⟩ := h
    have hcons : (opt :: opts).forM (rootlessOption checks linux) =
        rootlessOption checks linux opt >>= fun _ => opts.forM (rootlessOption checks linux) := rfl
    rw [hcons, Outcome.bind_eq_ok, List.forall_mem_cons]
    constructor
    · intro ⟨u, hok, hopts⟩
      have hmapped := (rootlessOption_eq_ok hfits).1 hok
      exact ⟨hmapped, (ih (hrest hmapped)).1 hopts⟩
    · intro ⟨hmapped, hopts⟩
      exact ⟨(), (rootlessOption_eq_ok hfits).2 hmapped, (ih (hrest hmapped)).2 hopts⟩

end

/-- The check is the one over the natural numbers, in builds with and without overflow checks,
exactly where the bounds fit that it computes on the way. -/
theorem rootlessEuidMount_iff (oci : Grpc.Spec) (linux : Grpc.Linux) (h : oci.linux = some linux) :
    ((∀ checks, rootlessEuidMount checks oci = .ok () ↔
      ∀ mnt ∈ oci.mounts, ∀ opt ∈ mnt.options, OptionMapped linux opt) ∧
        rootlessEuidMount true oci ≠ .panic) ↔ OptionsFit linux (mountOptions oci) := by
  have hall : (∀ mnt ∈ oci.mounts, ∀ opt ∈ mnt.options, OptionMapped linux opt) ↔
      ∀ opt ∈ mountOptions oci, OptionMapped linux opt := by
    rw [mountOptions, List.forall_mem_flatMap]
  rw [rootlessEuidMount_eq h, forM_ne_panic, hall]
  apply and_iff_right_of_imp
  intro hfits checks
  rw [rootlessEuidMount_eq h, forM_eq_ok hfits]

/-- Mounts with one option for the user, and one mapping of users. -/
def mappedSpec (m : Grpc.LinuxIDMapping) (opt : String) : Grpc.Spec :=
  { Grpc.Spec.empty with
    linux := some { Grpc.Linux.empty with uidMappings := [m] }
    mounts := [⟨"/data", "/data", "bind", [opt]⟩] }

theorem rootlessEuidMount_small :
    ((∀ checks, rootlessEuidMount checks (mappedSpec ⟨100000, 0, 65536⟩ "uid=1000") = .ok () ↔
      ∀ mnt ∈ (mappedSpec ⟨100000, 0, 65536⟩ "uid=1000").mounts, ∀ opt ∈ mnt.options,
        OptionMapped { Grpc.Linux.empty with uidMappings := [⟨100000, 0, 65536⟩] } opt) ∧
      rootlessEuidMount true (mappedSpec ⟨100000, 0, 65536⟩ "uid=1000") ≠ .panic) ∧
    rootlessEuidMount true (mappedSpec ⟨100000, 0, 65536⟩ "uid=1000") = .ok () := by
  have hfits : OptionsFit { Grpc.Linux.empty with uidMappings := [⟨100000, 0, 65536⟩] }
      (mountOptions (mappedSpec ⟨100000, 0, 65536⟩ "uid=1000")) := by
    constructor
    · intro _ id _
      exact ⟨fun _ => by decide, fun _ => trivial⟩
    · exact fun _ => trivial
  exact ⟨(rootlessEuidMount_iff (mappedSpec ⟨100000, 0, 65536⟩ "uid=1000") _ rfl).2 hfits,
    by decide⟩

/-- All ids but 0 are mapped, and the bound is 2 ^ 32. -/
theorem rootlessEuidMount_full :
    OptionMapped { Grpc.Linux.empty with uidMappings := [⟨1, 1, 4294967295⟩] } "uid=1000" ∧
      rootlessEuidMount true (mappedSpec ⟨1, 1, 4294967295⟩ "uid=1000") = .panic ∧
      rootlessEuidMount false (mappedSpec ⟨1, 1, 4294967295⟩ "uid=1000") = invalid := by
  have hid : optionId "uid=1000" = some 1000 := by decide
  constructor
  · intro _
    exact ⟨1000, hid, ⟨1, 1, 4294967295⟩, List.mem_singleton_self _, by decide, by decide⟩
  · decide

end KataAgent
