import KataAgent.DeviceUpdate
import Mathlib.Data.List.Forall2
import Mathlib.Data.List.Perm.Basic

namespace KataAgent
open Fallible Renumbering
set_option autoImplicit true

/-- The container path of a listed device, with the guest number of its node. -/
abbrev Target := String × DevNumber

def targets (g : DeviceGuest) (devices : List Device) : List Target :=
  devices.filterMap fun d =>
    match g.number d with
    | .ok n => some (d.containerPath, n)
    | _ => none

def Linux.rules (linux : Linux) : List LinuxDeviceCgroup :=
  match linux.resources with
  | none => []
  | some r => r.devices

def matched (ts : List Target) (es : List LinuxDevice) : List LinuxDevice :=
  es.filter fun e => ts.any fun t => t.1 = e.path

/-- The host numbers of the matched entries are distinct. -/
def HostsDistinct (ts : List Target) (es : List LinuxDevice) : Prop :=
  ((matched ts es).map LinuxDevice.number).Nodup

def EntrySubstituted (ts : List Target) (e e' : LinuxDevice) : Prop :=
  (∀ t ∈ ts, t.1 = e.path → e' = e.setNumber t.2) ∧ ((∀ t ∈ ts, t.1 ≠ e.path) → e' = e)

def RuleSubstituted (ts : List Target) (es : List LinuxDevice) (d d' : LinuxDeviceCgroup) : Prop :=
  (∀ e ∈ es, ∀ t ∈ ts, t.1 = e.path → d.number = e.number → d' = d.setNumber t.2) ∧
    ((∀ e ∈ es, ∀ t ∈ ts, t.1 = e.path → d.number ≠ e.number) → d' = d)

/-- Every matched entry has the number of its device, every rule that carried the original
number of a matched entry has the number of that entry's device, and nothing else changed. -/
structure Substituted (ts : List Target) (old new : Linux) : Prop where
  entries : List.Forall₂ (EntrySubstituted ts) old.devices new.devices
  rules : HostsDistinct ts old.devices →
    List.Forall₂ (RuleSubstituted ts old.devices) old.rules new.rules
  frame : new = { old with
    devices := new.devices
    resources := old.resources.map fun r => { r with devices := new.rules } }

/-- The pairs of original and guest number in the order in which the code applies them. -/
def steps : List Target → List LinuxDevice → List (DevNumber × DevNumber)
  | [], _ => []
  | t :: ts, es =>
    (es.filter fun e => e.path = t.1).map (fun e => (e.number, t.2)) ++
      steps ts (es.filter fun e => e.path ≠ t.1)

/-- Devices of one matched container path agree on the guest number, and a guest number
written into a rule is not taken for the host number of an entry that is handled later. -/
structure NoRecapture (ts : List Target) (linux : Linux) : Prop where
  samePath : ∀ t ∈ ts, ∀ u ∈ ts, t.1 = u.1 → (∃ e ∈ linux.devices, e.path = t.1) → t.2 = u.2
  settled : HostsDistinct ts linux.devices →
    ∀ d ∈ linux.rules, Settled (steps ts linux.devices) d.number

def Linux.retargetAll (linux : Linux) (ts : List Target) : Linux :=
  ts.foldl (fun l t => l.retarget t.1 t.2) linux

theorem addDevices_ok (h : addDevices g devices spec = .ok spec') :
    spec' = { spec with linux := spec.linux.map fun l => l.retargetAll (targets g devices) } := by
  induction devices generalizing spec with
  | nil =>
    cases h
    cases spec' with
    | mk process root hostname hooks linux => cases linux <;> rfl
  | cons device devices ih =>
    obtain ⟨spec₁, h₁, h₂⟩ := Outcome.bind_eq_ok.1 h
    obtain ⟨linux, n, hl, hn, he⟩ := addDevice_ok h₁
    have ht : targets g (device :: devices) = (device.containerPath, n) :: targets g devices := by
      simp only [targets, List.filterMap_cons, hn]
    rw [ih h₂, he, hl, ht]
    rfl

def retargetEntry (t : Target) (e : LinuxDevice) : LinuxDevice :=
  if e.path = t.1 then e.setNumber t.2 else e

@[simp] theorem retargetEntry_path (t : Target) (e : LinuxDevice) :
    (retargetEntry t e).path = e.path := by
  rw [retargetEntry]
  split <;> rfl

/-- The pairs that one device contributes, at the numbers the entries have by then. -/
def pairsAt (t : Target) (es : List LinuxDevice) : List (DevNumber × DevNumber) :=
  (es.filter fun e => e.path = t.1).map fun e => (e.number, t.2)

def renumberRules (ps : List (DevNumber × DevNumber)) (r : LinuxResources) : LinuxResources :=
  { r with devices := r.devices.map fun d => d.setNumber (rewriteAll ps d.number) }

theorem updateRules_eq (host guest : DevNumber) (r : LinuxResources) :
    updateRules host guest r = renumberRules [(host, guest)] r := by
  unfold updateRules renumberRules
  congr 1
  apply List.map_congr_left
  intro d _
  have hn : (d.number = host) ↔ (d.major = host.1 ∧ d.minor = host.2) := Prod.ext_iff
  simp only [rewriteAll_cons, rewriteAll_nil, rewrite, hn]
  split <;> rfl

theorem renumberRules_nil (r : LinuxResources) : renumberRules [] r = r := by
  simp only [renumberRules, rewriteAll_nil, LinuxDeviceCgroup.setNumber_number, List.map_id']

theorem renumberRules_append (ps qs : List (DevNumber × DevNumber)) (r : LinuxResources) :
    renumberRules (ps ++ qs) r = renumberRules qs (renumberRules ps r) := by
  simp only [renumberRules, List.map_map, rewriteAll_append]
  congr 1

theorem updateDevices_eq (t : Target) (es : List LinuxDevice) (res : Option LinuxResources) :
    updateDevices t.1 t.2 es res =
      (es.map (retargetEntry t), res.map (renumberRules (pairsAt t es))) := by
  induction es generalizing res with
  | nil =>
    have hid : renumberRules (pairsAt t []) = id := funext renumberRules_nil
    simp only [updateDevices, List.map_nil, hid, Option.map_id_fun, id_eq]
  | cons e es ih =>
    rw [updateDevices]
    by_cases hp : e.path = t.1
    · have hps : pairsAt t (e :: es) = [(e.number, t.2)] ++ pairsAt t es := by
        simp [pairsAt, hp]
      have hr : res.map (renumberRules (pairsAt t (e :: es))) =
          (res.map (updateRules (e.major, e.minor) t.2)).map (renumberRules (pairsAt t es)) := by
        rw [Option.map_map, hps]
        congr 1
        funext r
        rw [renumberRules_append, Function.comp_apply, updateRules_eq]
        rfl
      rw [if_pos hp, ih, hr]
      simp only [List.map_cons, retargetEntry, if_pos hp]
      rfl
    · have hps : pairsAt t (e :: es) = pairsAt t es := by
        simp [pairsAt, hp]
      rw [if_neg hp, ih, hps]
      simp only [List.map_cons, retargetEntry, if_neg hp]

/-- The pairs that the whole device list applies, as the entries are renumbered on the way. -/
def trace : List Target → List LinuxDevice → List (DevNumber × DevNumber)
  | [], _ => []
  | t :: ts, es => pairsAt t es ++ trace ts (es.map (retargetEntry t))

def finalEntry (ts : List Target) (e : LinuxDevice) : LinuxDevice :=
  ts.foldl (fun e t => retargetEntry t e) e

theorem Linux.retargetAll_eq (linux : Linux) (ts : List Target) :
    linux.retargetAll ts = { linux with
      devices := linux.devices.map (finalEntry ts)
      resources := linux.resources.map (renumberRules (trace ts linux.devices)) } := by
  induction ts generalizing linux with
  | nil =>
    have hid : renumberRules (trace [] linux.devices) = id := funext renumberRules_nil
    have he : finalEntry [] = id := rfl
    rw [hid, he, List.map_id, Option.map_id]
    rfl
  | cons t ts ih =>
    have hr : linux.retarget t.1 t.2 = { linux with
        devices := linux.devices.map (retargetEntry t)
        resources := linux.resources.map (renumberRules (pairsAt t linux.devices)) } := by
      simp only [Linux.retarget, updateDevices_eq]
    have hc : linux.retargetAll (t :: ts) = (linux.retarget t.1 t.2).retargetAll ts := rfl
    rw [hc, ih, hr]
    simp only [List.map_map, Option.map_map, trace]
    congr 2
    funext r
    rw [Function.comp_apply, renumberRules_append]

/-- The last device of an entry's path decides its number. -/
theorem finalEntry_cases (ts : List Target) (e : LinuxDevice) :
    ((∀ t ∈ ts, t.1 ≠ e.path) ∧ finalEntry ts e = e) ∨
      ∃ t ∈ ts, t.1 = e.path ∧ finalEntry ts e = e.setNumber t.2 := by
  induction ts generalizing e with
  | nil => exact .inl ⟨by simp, rfl⟩
  | cons t ts ih =>
    have hf : finalEntry (t :: ts) e = finalEntry ts (retargetEntry t e) := rfl
    rcases ih (retargetEntry t e) with ⟨hn, he⟩ | ⟨u, hu, hp, he⟩
    · rw [retargetEntry_path] at hn
      by_cases ht : e.path = t.1
      · refine .inr ⟨t, List.mem_cons_self, ht.symm, ?_⟩
        rw [hf, he, retargetEntry, if_pos ht]
      · refine .inl ⟨?_, ?_⟩
        · intro u hu
          rcases List.mem_cons.1 hu with rfl | hu
          · exact fun h => ht h.symm
          · exact hn u hu
        · rw [hf, he, retargetEntry, if_neg ht]
    · rw [retargetEntry_path] at hp
      refine .inr ⟨u, List.mem_cons_of_mem _ hu, hp, ?_⟩
      rw [hf, he, retargetEntry]
      split <;> rfl

theorem entrySubstituted_finalEntry_iff (ts : List Target) (e : LinuxDevice) :
    EntrySubstituted ts e (finalEntry ts e) ↔
      ∀ t ∈ ts, ∀ u ∈ ts, t.1 = e.path → u.1 = e.path → t.2 = u.2 := by
  constructor
  · intro h t ht u hu hte hue
    have he := (h.1 t ht hte).symm.trans (h.1 u hu hue)
    exact congrArg LinuxDevice.number he
  · intro h
    rcases finalEntry_cases ts e with ⟨hn, he⟩ | ⟨u, hu, hue, he⟩
    · exact ⟨fun t ht hte => absurd hte (hn t ht), fun _ => he⟩
    · refine ⟨?_, fun hn => absurd hue (hn u hu)⟩
      intro t ht hte
      rw [he, h t ht u hu hte hue]

/-- The entries still to be matched keep their numbers; the others already have the number
that every later device of their path would write. -/
def Pending (ts : List Target) (cur es : List LinuxDevice) : Prop :=
  ∀ q, (cur.filter fun e => e.path = q) = (es.filter fun e => e.path = q) ∨
    ((es.filter fun e => e.path = q) = [] ∧
      ∀ e ∈ cur, e.path = q → ∀ t ∈ ts, t.1 = q → e.number = t.2)

theorem rewriteAll_identity (h : ∀ p ∈ ps, p.1 = p.2) (x : DevNumber) : rewriteAll ps x = x := by
  induction ps with
  | nil => rfl
  | cons p ps ih =>
    have hp : rewrite x p = x := by
      rw [rewrite]
      split
      · rename_i hx
        rw [hx, h p List.mem_cons_self]
      · rfl
    rw [rewriteAll_cons, hp]
    exact ih fun q hq => h q (List.mem_cons_of_mem _ hq)

theorem Pending.step {t : Target} {cur es : List LinuxDevice} (h : Pending (t :: ts) cur es)
    (hc : ∀ u ∈ ts, t.1 = u.1 → (∃ e ∈ cur, e.path = t.1) → t.2 = u.2) :
    Pending ts (cur.map (retargetEntry t)) (es.filter fun e => e.path ≠ t.1) := by
  intro q
  by_cases hq : q = t.1
  · subst hq
    refine .inr ⟨?_, ?_⟩
    · rw [List.filter_filter]
      simp
    · intro e he hep u hu hut
      obtain ⟨e₀, he₀, rfl⟩ := List.mem_map.1 he
      rw [retargetEntry_path] at hep
      rw [← hc u hu hut.symm ⟨e₀, he₀, hep⟩, retargetEntry, if_pos hep]
      rfl
  · have hcur : ((cur.map (retargetEntry t)).filter fun e => e.path = q) =
        cur.filter fun e => e.path = q := by
      rw [List.filter_map]
      have hcomp : (fun e : LinuxDevice => decide (e.path = q)) ∘ retargetEntry t =
          fun e => decide (e.path = q) := by
        funext e
        simp
      rw [hcomp]
      conv_rhs => rw [← List.map_id (cur.filter _)]
      apply List.map_congr_left
      intro e he
      have hp : e.path = q := by simpa using (List.mem_filter.1 he).2
      exact if_neg fun hpt => hq (hp.symm.trans hpt)
    have hes : ((es.filter fun e => e.path ≠ t.1).filter fun e => e.path = q) =
        es.filter fun e => e.path = q := by
      rw [List.filter_filter]
      apply List.filter_congr
      intro e _
      by_cases hp : e.path = q
      · simp [hp, hq]
      · simp [hp]
    rw [hcur, hes]
    rcases h q with he | ⟨hn, he⟩
    · exact .inl he
    · refine .inr ⟨hn, ?_⟩
      intro e hm hp u hu hut
      obtain ⟨e₀, he₀, rfl⟩ := List.mem_map.1 hm
      rw [retargetEntry_path] at hp
      have hr : retargetEntry t e₀ = e₀ := if_neg fun hpt => hq (hp.symm.trans hpt)
      rw [hr]
      exact he e₀ he₀ hp u (List.mem_cons_of_mem _ hu) hut

/-- With one guest number a path, a second device of a path rewrites nothing. -/
theorem rewriteAll_trace {cur es : List LinuxDevice} (h : Pending ts cur es)
    (hc : ∀ t ∈ ts, ∀ u ∈ ts, t.1 = u.1 → (∃ e ∈ cur, e.path = t.1) → t.2 = u.2)
    (x : DevNumber) : rewriteAll (trace ts cur) x = rewriteAll (steps ts es) x := by
  induction ts generalizing cur es x with
  | nil => rfl
  | cons t ts ih =>
    have hhead : rewriteAll (pairsAt t cur) x = rewriteAll (pairsAt t es) x := by
      rcases h t.1 with he | ⟨hn, he⟩
      · rw [pairsAt, pairsAt, he]
      · have hp : pairsAt t es = [] := by rw [pairsAt, hn, List.map_nil]
        rw [hp, rewriteAll_nil]
        apply rewriteAll_identity
        intro p hp
        obtain ⟨e, hm, rfl⟩ := List.mem_map.1 hp
        have hm := List.mem_filter.1 hm
        exact he e hm.1 (by simpa using hm.2) t List.mem_cons_self rfl
    rw [trace, steps, rewriteAll_append, rewriteAll_append, hhead]
    have hstep := h.step fun u hu => hc t List.mem_cons_self u (List.mem_cons_of_mem _ hu)
    apply ih hstep
    intro u hu v hv huv hex
    obtain ⟨e, he, hep⟩ := hex
    obtain ⟨e₀, he₀, rfl⟩ := List.mem_map.1 he
    rw [retargetEntry_path] at hep
    exact hc u (List.mem_cons_of_mem _ hu) v (List.mem_cons_of_mem _ hv) huv ⟨e₀, he₀, hep⟩

theorem mem_steps {p : DevNumber × DevNumber} (h : p ∈ steps ts es) :
    ∃ e ∈ es, ∃ t ∈ ts, t.1 = e.path ∧ p = (e.number, t.2) := by
  induction ts generalizing es with
  | nil => cases h
  | cons t ts ih =>
    rcases List.mem_append.1 h with h | h
    · obtain ⟨e, he, rfl⟩ := List.mem_map.1 h
      have he := List.mem_filter.1 he
      have hp : e.path = t.1 := by simpa using he.2
      exact ⟨e, he.1, t, List.mem_cons_self, hp.symm, rfl⟩
    · obtain ⟨e, he, u, hu, hue, rfl⟩ := ih h
      exact ⟨e, (List.mem_filter.1 he).1, u, List.mem_cons_of_mem _ hu, hue, rfl⟩

/-- Every matched entry contributes a pair, with the number of the first device of its path. -/
theorem exists_mem_steps {e : LinuxDevice} {t : Target} (he : e ∈ es) (ht : t ∈ ts)
    (hp : t.1 = e.path) : ∃ u ∈ ts, u.1 = e.path ∧ (e.number, u.2) ∈ steps ts es := by
  induction ts generalizing es with
  | nil => cases ht
  | cons u ts ih =>
    by_cases hu : e.path = u.1
    · refine ⟨u, List.mem_cons_self, hu.symm, List.mem_append_left _ ?_⟩
      have hm : e ∈ es.filter fun e => e.path = u.1 := List.mem_filter.2 ⟨he, by simpa using hu⟩
      exact List.mem_map_of_mem (f := fun e : LinuxDevice => (e.number, u.2)) hm
    · have ht' : t ∈ ts := by
        rcases List.mem_cons.1 ht with rfl | ht
        · exact absurd hp.symm hu
        · exact ht
      have hm : e ∈ es.filter fun e => e.path ≠ u.1 := List.mem_filter.2 ⟨he, by simpa using hu⟩
      obtain ⟨v, hv, hve, hs⟩ := ih hm ht'
      exact ⟨v, List.mem_cons_of_mem _ hv, hve, List.mem_append_right _ hs⟩

theorem steps_sources_perm (ts : List Target) (es : List LinuxDevice) :
    ((steps ts es).map Prod.fst).Perm ((matched ts es).map LinuxDevice.number) := by
  induction ts generalizing es with
  | nil =>
    have hm : matched [] es = [] := by
      rw [matched]
      exact List.filter_eq_nil_iff.2 fun e _ => by simp
    rw [hm]
    exact List.Perm.refl _
  | cons t ts ih =>
    have hsplit : ((es.filter fun e => e.path = t.1) ++
        matched ts (es.filter fun e => e.path ≠ t.1)).Perm (matched (t :: ts) es) := by
      have hm :=
        List.filter_append_perm (fun e : LinuxDevice => e.path = t.1) (matched (t :: ts) es)
      have h₁ : (matched (t :: ts) es).filter (fun e => e.path = t.1) =
          es.filter fun e => e.path = t.1 := by
        rw [matched, List.filter_filter]
        apply List.filter_congr
        intro e _
        by_cases hp : e.path = t.1
        · simp [hp]
        · simp [hp]
      have h₂ : (matched (t :: ts) es).filter (fun e => !decide (e.path = t.1)) =
          matched ts (es.filter fun e => e.path ≠ t.1) := by
        rw [matched, matched, List.filter_filter, List.filter_filter]
        apply List.filter_congr
        intro e _
        by_cases hp : e.path = t.1
        · simp [hp]
        · simp [hp, Ne.symm hp]
      rw [h₁, h₂] at hm
      exact hm
    have hmap := hsplit.map LinuxDevice.number
    rw [List.map_append] at hmap
    rw [steps, List.map_append, List.map_map]
    exact ((List.Perm.refl _).append (ih _)).trans hmap

theorem hostsDistinct_iff (ts : List Target) (es : List LinuxDevice) :
    HostsDistinct ts es ↔ ((steps ts es).map Prod.fst).Nodup :=
  (steps_sources_perm ts es).nodup_iff.symm

theorem ruleSubstituted_iff {d : LinuxDeviceCgroup} {y : DevNumber}
    (hc : ∀ t ∈ ts, ∀ u ∈ ts, t.1 = u.1 → (∃ e ∈ es, e.path = t.1) → t.2 = u.2) :
    RuleSubstituted ts es d (d.setNumber y) ↔ Simultaneous (steps ts es) d.number y := by
  constructor
  · intro h
    constructor
    · intro p hp hpd
      obtain ⟨e, he, t, ht, hte, rfl⟩ := mem_steps hp
      exact congrArg LinuxDeviceCgroup.number (h.1 e he t ht hte hpd.symm)
    · intro hn
      refine congrArg LinuxDeviceCgroup.number (h.2 ?_)
      intro e he t ht hte hde
      obtain ⟨u, _, _, hs⟩ := exists_mem_steps he ht hte
      exact hn _ hs hde.symm
  · intro h
    constructor
    · intro e he t ht hte hde
      obtain ⟨u, hu, hue, hs⟩ := exists_mem_steps he ht hte
      have hy := h.1 _ hs hde.symm
      rw [hy, hc t ht u hu (hte.trans hue.symm) ⟨e, he, hte.symm⟩]
    · intro hn
      have hy : y = d.number := by
        apply h.2
        intro p hp hpd
        obtain ⟨e, he, t, ht, hte, rfl⟩ := mem_steps hp
        exact hn e he t ht hte hpd.symm
      rw [hy, LinuxDeviceCgroup.setNumber_number]

theorem Linux.rules_retargetAll (linux : Linux) (ts : List Target) :
    (linux.retargetAll ts).rules =
      linux.rules.map fun d => d.setNumber (rewriteAll (trace ts linux.devices) d.number) := by
  rw [Linux.retargetAll_eq]
  unfold Linux.rules
  cases linux.resources with
  | none => rfl
  | some r => rfl

theorem substituted_retargetAll_iff (ts : List Target) (linux : Linux) :
    Substituted ts linux (linux.retargetAll ts) ↔ NoRecapture ts linux := by
  have hdev : (linux.retargetAll ts).devices = linux.devices.map (finalEntry ts) := by
    rw [Linux.retargetAll_eq]
  have hentries : List.Forall₂ (EntrySubstituted ts) linux.devices (linux.retargetAll ts).devices ↔
      ∀ t ∈ ts, ∀ u ∈ ts, t.1 = u.1 → (∃ e ∈ linux.devices, e.path = t.1) → t.2 = u.2 := by
    rw [hdev, List.forall₂_map_right_iff, List.forall₂_same]
    constructor
    · rintro h t ht u hu htu ⟨e, he, hep⟩
      exact (entrySubstituted_finalEntry_iff ts e).1 (h e he) t ht u hu hep.symm
        (htu.symm.trans hep.symm)
    · intro h e he
      refine (entrySubstituted_finalEntry_iff ts e).2 fun t ht u hu hte hue => ?_
      exact h t ht u hu (hte.trans hue.symm) ⟨e, he, hte.symm⟩
  have hrules (hc : ∀ t ∈ ts, ∀ u ∈ ts, t.1 = u.1 →
        (∃ e ∈ linux.devices, e.path = t.1) → t.2 = u.2)
      (hd : HostsDistinct ts linux.devices) :
      List.Forall₂ (RuleSubstituted ts linux.devices) linux.rules (linux.retargetAll ts).rules ↔
        ∀ d ∈ linux.rules, Settled (steps ts linux.devices) d.number := by
    rw [Linux.rules_retargetAll, List.forall₂_map_right_iff, List.forall₂_same]
    have hpending : Pending ts linux.devices linux.devices := fun q => .inl rfl
    have htrace := rewriteAll_trace hpending hc
    apply forall₂_congr
    intro d _
    rw [htrace, ruleSubstituted_iff hc]
    exact simultaneous_rewriteAll_iff ((hostsDistinct_iff ts _).1 hd)
  constructor
  · intro h
    have hc := hentries.1 h.entries
    exact ⟨hc, fun hd => (hrules hc hd).1 (h.rules hd)⟩
  · intro h
    refine ⟨hentries.2 h.samePath, fun hd => (hrules h.samePath hd).2 (h.settled hd), ?_⟩
    rw [Linux.rules_retargetAll, Linux.retargetAll_eq]
    rw [Linux.rules]
    cases linux.resources with
    | none => rfl
    | some r => rfl

theorem targets_perm (g : DeviceGuest) (h : devices.Perm devices') :
    (targets g devices).Perm (targets g devices') :=
  h.filterMap _

theorem forall₂_functional {α β : Type} {R S : α → β → Prop} {l : List α} {l₁ l₂ : List β}
    (hRS : ∀ a b c, R a b → S a c → b = c) (h₁ : List.Forall₂ R l l₁)
    (h₂ : List.Forall₂ S l l₂) : l₁ = l₂ := by
  induction h₁ generalizing l₂ with
  | nil =>
    cases h₂
    rfl
  | cons hr _ ih =>
    cases h₂ with
    | cons hs h₂ => rw [hRS _ _ _ hr hs, ih h₂]

/-- Substitution at once has one result, whatever the order of the devices. -/
theorem Substituted.unique (h : Substituted ts old new) (h' : Substituted us old new')
    (hp : ts.Perm us) (hd : HostsDistinct ts old.devices) : new = new' := by
  have hm (t : Target) : t ∈ ts ↔ t ∈ us := hp.mem_iff
  have hentry (e e₁ e₂ : LinuxDevice) (h₁ : EntrySubstituted ts e e₁)
      (h₂ : EntrySubstituted us e e₂) : e₁ = e₂ := by
    by_cases hx : ∃ t ∈ ts, t.1 = e.path
    · obtain ⟨t, ht, hte⟩ := hx
      exact (h₁.1 t ht hte).trans (h₂.1 t ((hm t).1 ht) hte).symm
    · have hn : ∀ t ∈ ts, t.1 ≠ e.path := fun t ht hte => hx ⟨t, ht, hte⟩
      exact (h₁.2 hn).trans (h₂.2 fun t ht => hn t ((hm t).2 ht)).symm
  have hrule (d d₁ d₂ : LinuxDeviceCgroup) (h₁ : RuleSubstituted ts old.devices d d₁)
      (h₂ : RuleSubstituted us old.devices d d₂) : d₁ = d₂ := by
    by_cases hx : ∃ e ∈ old.devices, ∃ t ∈ ts, t.1 = e.path ∧ d.number = e.number
    · obtain ⟨e, he, t, ht, hte, hde⟩ := hx
      exact (h₁.1 e he t ht hte hde).trans (h₂.1 e he t ((hm t).1 ht) hte hde).symm
    · have hn : ∀ e ∈ old.devices, ∀ t ∈ ts, t.1 = e.path → d.number ≠ e.number :=
        fun e he t ht hte hde => hx ⟨e, he, t, ht, hte, hde⟩
      exact (h₁.2 hn).trans (h₂.2 fun e he t ht => hn e he t ((hm t).2 ht)).symm
  have hd' : HostsDistinct us old.devices := by
    have he : matched us old.devices = matched ts old.devices := by
      apply List.filter_congr
      intro e _
      simp only [List.any_eq, hm]
    rwa [HostsDistinct, he]
  have hes := forall₂_functional hentry h.entries h'.entries
  have hrs := forall₂_functional hrule (h.rules hd) (h'.rules hd')
  rw [h.frame, h'.frame, hes, hrs]

/-- What the caller expects of a spec without and with a Linux section. -/
def SpecSubstituted (ts : List Target) (spec spec' : Spec) : Prop :=
  match spec.linux with
  | none => spec' = spec
  | some old => ∃ new, spec' = { spec with linux := some new } ∧ Substituted ts old new

def SpecNoRecapture (ts : List Target) (spec : Spec) : Prop :=
  ∀ linux, spec.linux = some linux → NoRecapture ts linux

theorem specSubstituted_iff (h : addDevices g devices spec = .ok spec') :
    SpecSubstituted (targets g devices) spec spec' ↔ SpecNoRecapture (targets g devices) spec := by
  have he := addDevices_ok h
  unfold SpecSubstituted SpecNoRecapture
  cases hl : spec.linux with
  | none =>
    rw [hl] at he
    have hs : spec' = spec := by
      rw [he]
      cases spec with
      | mk process root hostname hooks linux =>
        cases hl
        rfl
    simp [hs]
  | some old =>
    rw [hl] at he
    constructor
    · rintro ⟨new, hn, hs⟩ linux hlinux
      cases hlinux
      have hnew : new = old.retargetAll (targets g devices) :=
        Option.some.inj (congrArg Spec.linux (hn.symm.trans he))
      subst hnew
      exact (substituted_retargetAll_iff _ _).1 hs
    · intro hn
      exact ⟨_, he, (substituted_retargetAll_iff _ _).2 (hn old rfl)⟩

/-- A successful request substitutes all numbers at once, and so in any order of its devices,
exactly when no written guest number is captured by a later device. -/
theorem addDevices_simultaneous_iff (g : DeviceGuest) (devices : List Device) (spec spec' : Spec)
    (h : addDevices g devices spec = .ok spec') :
    (SpecSubstituted (targets g devices) spec spec' ↔
        SpecNoRecapture (targets g devices) spec) ∧
      ∀ devices' spec'', devices.Perm devices' → addDevices g devices' spec = .ok spec'' →
        (∀ linux, spec.linux = some linux → HostsDistinct (targets g devices) linux.devices) →
        SpecNoRecapture (targets g devices) spec → SpecNoRecapture (targets g devices') spec →
        spec' = spec'' := by
  refine ⟨specSubstituted_iff h, ?_⟩
  intro devices' spec'' hp h' hd hn hn'
  have hs := (specSubstituted_iff h).2 hn
  have hs' := (specSubstituted_iff h').2 hn'
  unfold SpecSubstituted at hs hs'
  cases hl : spec.linux with
  | none =>
    rw [hl] at hs hs'
    exact hs.trans hs'.symm
  | some old =>
    rw [hl] at hs hs'
    obtain ⟨new, he, hs⟩ := hs
    obtain ⟨new', he', hs'⟩ := hs'
    rw [he, he', hs.unique hs' (targets_perm g hp) (hd old hl)]

def twoDiskGuest (a b : UInt64) : DeviceGuest where
  nodeExists _ := true
  rdev node := .ok (if node = "/dev/vda" then a else b)
  pciDeviceName _ := .err (.errorCode "no PCI device")
  scsiDeviceName _ := .err (.errorCode "no SCSI device")

def twoDisks : List Device :=
  [⟨"", "nvdimm", "/dev/vda", "/dev/x", []⟩, ⟨"", "nvdimm", "/dev/vdb", "/dev/y", []⟩]

/-- Two block devices at the given numbers, each with a rule that allows it. -/
def twoDiskSpec (x y : DevNumber) : Spec where
  process := none
  root := none
  hostname := ""
  hooks := none
  linux := some
    { uidMappings := []
      gidMappings := []
      sysctl := []
      resources := some ⟨[⟨true, "b", x.1, x.2, "rwm"⟩, ⟨true, "b", y.1, y.2, "rwm"⟩]⟩
      namespaces := []
      devices := [⟨"/dev/x", "b", x.1, x.2, 0, 0, 0⟩, ⟨"/dev/y", "b", y.1, y.2, 0, 0, 0⟩] }

/-- Both orders of two disks, where no guest number is a host number, give one spec. -/
theorem addDevices_simultaneous_iff_twoDisks :
    ∃ spec', addDevices (twoDiskGuest 0xfe00 0xfe10) twoDisks (twoDiskSpec (8, 0) (8, 16)) =
        .ok spec' ∧
      (SpecSubstituted (targets (twoDiskGuest 0xfe00 0xfe10) twoDisks)
          (twoDiskSpec (8, 0) (8, 16)) spec' ↔
        SpecNoRecapture (targets (twoDiskGuest 0xfe00 0xfe10) twoDisks)
          (twoDiskSpec (8, 0) (8, 16))) := by
  have hok : addDevices (twoDiskGuest 0xfe00 0xfe10) twoDisks (twoDiskSpec (8, 0) (8, 16)) =
      .ok (twoDiskSpec (254, 0) (254, 16)) := by decide
  exact ⟨_, hok, (addDevices_simultaneous_iff _ _ _ _ hok).1⟩

/-- The first disk's guest number 8:16 is the second one's host number, so its rule ends
with 8:32, the number of the other disk. -/
theorem addDevices_not_simultaneous :
    ¬ ∀ g devices spec spec', addDevices g devices spec = .ok spec' →
      SpecSubstituted (targets g devices) spec spec' := by
  intro h
  have hok : addDevices (twoDiskGuest 0x810 0x820) twoDisks (twoDiskSpec (8, 0) (8, 16)) =
      .ok { twoDiskSpec (8, 16) (8, 32) with
        linux := (twoDiskSpec (8, 16) (8, 32)).linux.map fun l => { l with
          resources := some ⟨[⟨true, "b", 8, 32, "rwm"⟩, ⟨true, "b", 8, 32, "rwm"⟩]⟩ } } := by
    decide
  have hn := (specSubstituted_iff hok).1 (h _ _ _ _ hok) _ rfl
  have hd : HostsDistinct (targets (twoDiskGuest 0x810 0x820) twoDisks)
      [⟨"/dev/x", "b", 8, 0, 0, 0, 0⟩, ⟨"/dev/y", "b", 8, 16, 0, 0, 0⟩] := by
    rw [HostsDistinct]
    decide
  have hs := hn.settled hd ⟨true, "b", 8, 0, "rwm"⟩ List.mem_cons_self
    [] ((8, 0), (8, 16)) [((8, 16), (8, 32))] (by decide) rfl
  exact absurd hs (by decide)

end KataAgent
