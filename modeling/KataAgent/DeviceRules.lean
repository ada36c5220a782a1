import KataAgent.DeviceSubstitution

namespace KataAgent
open Fallible Renumbering
set_option autoImplicit true

def wildcard : Int := -1

def DevNumber.IsWildcard (n : DevNumber) : Prop := n.1 = wildcard ∨ n.2 = wildcard

/-- A rule names a listed device by its type and its numbers. -/
def Refers (path : String) (es : List LinuxDevice) (r : LinuxDeviceCgroup) : Prop :=
  ∃ e ∈ es, e.path = path ∧ e.type = r.type ∧ e.number = r.number

instance : Decidable (Refers path es r) :=
  inferInstanceAs (Decidable (∃ e ∈ es, e.path = path ∧ e.type = r.type ∧ e.number = r.number))

/-- The rules that refer to an entry of the device have its guest number, the others are as
they were, and so are all wildcard rules when the entries have concrete numbers. -/
structure RulesFollow (path : String) (guest : DevNumber) (old new : Linux) : Prop where
  referring : new.rules =
    old.rules.map fun r => if Refers path old.devices r then r.setNumber guest else r
  wildcards : (∀ e ∈ old.devices, e.path = path → ¬e.number.IsWildcard) →
    List.Forall₂ (fun r r' => r.number.IsWildcard → r' = r) old.rules new.rules

/-- A rule that shares its numbers with an entry of the device also shares the type of such an
entry, unless it has the guest number already. -/
def TypesAgree (path : String) (guest : DevNumber) (linux : Linux) : Prop :=
  ∀ r ∈ linux.rules, ∀ e ∈ linux.devices, e.path = path → e.number = r.number →
    Refers path linux.devices r ∨ r.number = guest

def SpecRulesFollow (g : DeviceGuest) (device : Device) (spec spec' : Spec) : Prop :=
  ∀ linux devId, spec.linux = some linux → g.rdev device.vmPath = .ok devId →
    ∃ linux', spec'.linux = some linux' ∧
      RulesFollow device.containerPath (devNumber devId) linux linux'

def SpecTypesAgree (g : DeviceGuest) (device : Device) (spec : Spec) : Prop :=
  ∀ linux devId, spec.linux = some linux → g.rdev device.vmPath = .ok devId →
    TypesAgree device.containerPath (devNumber devId) linux

/-- The numbers alone decide which rules are rewritten. -/
def Numbered (path : String) (es : List LinuxDevice) (r : LinuxDeviceCgroup) : Prop :=
  ∃ e ∈ es, e.path = path ∧ e.number = r.number

instance : Decidable (Numbered path es r) :=
  inferInstanceAs (Decidable (∃ e ∈ es, e.path = path ∧ e.number = r.number))

theorem Refers.numbered (h : Refers path es r) : Numbered path es r := by
  obtain ⟨e, he, hp, _, hn⟩ := h
  exact ⟨e, he, hp, hn⟩

theorem mem_pairsAt_fst (t : Target) (es : List LinuxDevice) (r : LinuxDeviceCgroup) :
    r.number ∈ (pairsAt t es).map Prod.fst ↔ Numbered t.1 es r := by
  simp only [pairsAt, List.map_map, List.mem_map, List.mem_filter, decide_eq_true_eq,
    Function.comp_apply, Numbered, and_assoc]

theorem Linux.rules_retarget (linux : Linux) (path : String) (guest : DevNumber) :
    (linux.retarget path guest).rules =
      linux.rules.map fun r => if Numbered path linux.devices r then r.setNumber guest else r := by
  have hr : (linux.retarget path guest).rules = linux.rules.map fun r =>
      r.setNumber (rewriteAll (pairsAt (path, guest) linux.devices) r.number) := by
    simp only [Linux.retarget, updateDevices_eq (path, guest), Linux.rules]
    cases linux.resources with
    | none => rfl
    | some r => rfl
  have htarget : ∀ p ∈ pairsAt (path, guest) linux.devices, p.2 = guest := by
    intro p hp
    obtain ⟨e, _, rfl⟩ := List.mem_map.1 hp
    rfl
  rw [hr]
  apply List.map_congr_left
  intro r _
  rw [rewriteAll_of_forall_snd htarget]
  by_cases h : Numbered path linux.devices r
  · rw [if_pos h, if_pos ((mem_pairsAt_fst _ _ r).2 h)]
  · rw [if_neg h, if_neg fun hm => h ((mem_pairsAt_fst _ _ r).1 hm)]
    rfl

/-- No wildcard rule shares its numbers with an entry that has concrete numbers. -/
theorem Linux.retarget_wildcards (linux : Linux) (guest : DevNumber)
    (h : ∀ e ∈ linux.devices, e.path = path → ¬e.number.IsWildcard) :
    List.Forall₂ (fun r r' => r.number.IsWildcard → r' = r)
      linux.rules (linux.retarget path guest).rules := by
  rw [Linux.rules_retarget, List.forall₂_map_right_iff, List.forall₂_same]
  intro r _ hw
  rw [if_neg]
  rintro ⟨e, he, hp, hn⟩
  rw [← hn] at hw
  exact h e he hp hw

theorem rulesFollow_retarget_iff (path : String) (guest : DevNumber) (linux : Linux) :
    RulesFollow path guest linux (linux.retarget path guest) ↔ TypesAgree path guest linux := by
  constructor
  · intro h r hr e he hp hn
    have hm := h.referring
    rw [Linux.rules_retarget] at hm
    have heq := List.map_inj_left.1 hm r hr
    by_cases href : Refers path linux.devices r
    · exact .inl href
    · rw [if_pos ⟨e, he, hp, hn⟩, if_neg href] at heq
      exact .inr (congrArg LinuxDeviceCgroup.number heq).symm
  · intro h
    apply RulesFollow.mk
    · rw [Linux.rules_retarget]
      apply List.map_congr_left
      intro r hr
      by_cases href : Refers path linux.devices r
      · rw [if_pos href, if_pos href.numbered]
      · rw [if_neg href]
        by_cases hnum : Numbered path linux.devices r
        · obtain ⟨e, he, hp, hn⟩ := hnum
          have hg := (h r hr e he hp hn).resolve_left href
          rw [if_pos ⟨e, he, hp, hn⟩, ← hg, LinuxDeviceCgroup.setNumber_number]
        · rw [if_neg hnum]
    · exact linux.retarget_wildcards guest

/-- Exactly the rules that refer to the device are renumbered if and only if no rule of another
type shares the numbers of one of its entries. -/
theorem updateSpecDeviceList_rulesFollow_iff (g : DeviceGuest) (device : Device)
    (spec spec' : Spec) (h : updateSpecDeviceList g device spec = .ok spec') :
    SpecRulesFollow g device spec spec' ↔ SpecTypesAgree g device spec := by
  obtain ⟨old, devId, hl, hd, he⟩ := updateSpecDeviceList_ok h
  have hiff := rulesFollow_retarget_iff device.containerPath (devNumber devId) old
  constructor
  · intro hs linux devId' hl' hd'
    cases Option.some.inj (hl.symm.trans hl')
    cases Outcome.ok.inj (hd.symm.trans hd')
    obtain ⟨new, hn, hf⟩ := hs old devId hl hd
    rw [he] at hn
    cases Option.some.inj hn
    exact hiff.1 hf
  · intro hs linux devId' hl' hd'
    cases Option.some.inj (hl.symm.trans hl')
    cases Outcome.ok.inj (hd.symm.trans hd')
    rw [he]
    exact ⟨_, rfl, hiff.2 (hs old devId hl hd)⟩

/-- A block device at 8:1 with one rule of the given type that has the same numbers. -/
def sharedNumberSpec (type : String) (rule : DevNumber) : Spec where
  process := none
  root := none
  hostname := ""
  hooks := none
  linux := some
    { uidMappings := []
      gidMappings := []
      sysctl := []
      resources := some ⟨[⟨true, type, rule.1, rule.2, "rwm"⟩, ⟨false, "a", -1, -1, "rwm"⟩]⟩
      namespaces := []
      devices := [⟨"/dev/x", "b", 8, 1, 0, 0, 0⟩] }

theorem updateSpecDeviceList_rulesFollow_iff_block :
    ∃ spec', updateSpecDeviceList (twoDiskGuest 0xfe00 0xfe10)
        ⟨"", "nvdimm", "/dev/vda", "/dev/x", []⟩ (sharedNumberSpec "b" (8, 1)) = .ok spec' ∧
      (SpecRulesFollow (twoDiskGuest 0xfe00 0xfe10) ⟨"", "nvdimm", "/dev/vda", "/dev/x", []⟩
          (sharedNumberSpec "b" (8, 1)) spec' ↔
        SpecTypesAgree (twoDiskGuest 0xfe00 0xfe10) ⟨"", "nvdimm", "/dev/vda", "/dev/x", []⟩
          (sharedNumberSpec "b" (8, 1))) := by
  have hok : ∃ spec', updateSpecDeviceList (twoDiskGuest 0xfe00 0xfe10)
      ⟨"", "nvdimm", "/dev/vda", "/dev/x", []⟩ (sharedNumberSpec "b" (8, 1)) = .ok spec' :=
    ⟨_, rfl⟩
  obtain ⟨spec', hok⟩ := hok
  exact ⟨spec', hok, updateSpecDeviceList_rulesFollow_iff _ _ _ _ hok⟩

/-- The rule for the character device 8:1 is given the numbers of the disk. -/
theorem updateSpecDeviceList_not_rulesFollow :
    ¬ ∀ g device spec spec', updateSpecDeviceList g device spec = .ok spec' →
      SpecRulesFollow g device spec spec' := by
  intro h
  have hok : ∃ spec', updateSpecDeviceList (twoDiskGuest 0xfe00 0xfe10)
      ⟨"", "nvdimm", "/dev/vda", "/dev/x", []⟩ (sharedNumberSpec "c" (8, 1)) = .ok spec' :=
    ⟨_, rfl⟩
  obtain ⟨spec', hok⟩ := hok
  obtain ⟨old, devId, hl, hd, he⟩ := updateSpecDeviceList_ok hok
  obtain ⟨new, hn, hf⟩ := h _ _ _ _ hok old devId hl hd
  rw [he] at hn
  cases Option.some.inj hn
  have hagree := (rulesFollow_retarget_iff _ _ _).1 hf
  cases hl
  cases hd
  have hrule := hagree ⟨true, "c", 8, 1, "rwm"⟩ List.mem_cons_self
    ⟨"/dev/x", "b", 8, 1, 0, 0, 0⟩ List.mem_cons_self rfl rfl
  exact absurd hrule (by decide)

end KataAgent
