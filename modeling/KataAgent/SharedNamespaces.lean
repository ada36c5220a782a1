import KataAgent.ContainerRequests

namespace KataAgent
open Fallible
set_option autoImplicit true

def Spec.namespaces (spec : Spec) : List LinuxNamespace :=
  match spec.linux with
  | none => []
  | some linux => linux.namespaces

/-- The types that the sandbox decides about. -/
def LinuxNamespace.Managed (ns : LinuxNamespace) : Prop :=
  ns.type = "pid" ∨ ns.type = "ipc" ∨ ns.type = "uts"

instance : Decidable (LinuxNamespace.Managed ns) := inferInstanceAs (Decidable (_ ∨ _ ∨ _))

/-- The namespaces are those that the sandbox offers, and none is one that the host chose. -/
structure NamespacesShared (sb : Sandbox) (spec spec' : Spec) : Prop where
  ipc : ∀ ns ∈ spec'.namespaces, ns.type = "ipc" → ns.path = sb.sharedIpcns
  uts : ∀ ns ∈ spec'.namespaces, ns.type = "uts" → ns.path = sb.sharedUtsns
  pid : ∀ ns ∈ spec'.namespaces, ns.type = "pid" → ns.path ≠ "" →
    ∀ chosen ∈ spec.namespaces, chosen.type = "pid" → ns.path ≠ chosen.path
  ownPid : sb.sandboxPidNs = false → ∃ ns ∈ spec'.namespaces, ns.type = "pid"
  types : ∃ added, spec'.namespaces.map LinuxNamespace.type =
    spec.namespaces.map LinuxNamespace.type ++ added ∧ ∀ type ∈ added, type = "pid"
  others : (spec'.namespaces.filter fun ns => ¬ns.Managed) =
    spec.namespaces.filter fun ns => ¬ns.Managed
  frame : spec' = { spec with linux := spec.linux.map fun linux =>
    { linux with namespaces := spec'.namespaces } }
  again : updateContainerNamespaces sb spec' = .ok spec'

/-- The list that the update leaves. -/
def shareNamespaces (sb : Sandbox) (namespaces : List LinuxNamespace) : List LinuxNamespace :=
  if !namespaces.any (·.type = "pid") && !sb.sandboxPidNs then
    namespaces.map (updateNamespace sb) ++ [⟨"pid", ""⟩]
  else namespaces.map (updateNamespace sb)

theorem updateContainerNamespaces_eq (sb : Sandbox) (h : spec.linux = some linux) :
    updateContainerNamespaces sb spec = .ok { spec with linux := some { linux with
      namespaces := shareNamespaces sb linux.namespaces } } := by
  rw [updateContainerNamespaces, h]
  rfl

theorem updateNamespace_cases (sb : Sandbox) (ns : LinuxNamespace) :
    (ns.type = "ipc" ∧ updateNamespace sb ns = { ns with path := sb.sharedIpcns }) ∨
      (ns.type = "uts" ∧ updateNamespace sb ns = { ns with path := sb.sharedUtsns }) ∨
        (ns.type ≠ "ipc" ∧ ns.type ≠ "uts" ∧ updateNamespace sb ns = ns) := by
  rw [updateNamespace]
  split
  · rename_i hp
    rw [hp]
    exact .inr (.inr ⟨by decide, by decide, rfl⟩)
  · split
    · rename_i hi
      exact .inl ⟨hi, rfl⟩
    · rename_i hi
      split
      · rename_i hu
        exact .inr (.inl ⟨hu, rfl⟩)
      · rename_i hu
        exact .inr (.inr ⟨hi, hu, rfl⟩)

@[simp] theorem updateNamespace_type (sb : Sandbox) (ns : LinuxNamespace) :
    (updateNamespace sb ns).type = ns.type := by
  rcases updateNamespace_cases sb ns with ⟨_, h⟩ | ⟨_, h⟩ | ⟨_, _, h⟩ <;> rw [h]

theorem updateNamespace_again (sb : Sandbox) (ns : LinuxNamespace) :
    updateNamespace sb (updateNamespace sb ns) = updateNamespace sb ns := by
  rcases updateNamespace_cases sb ns with ⟨hi, h⟩ | ⟨hu, h⟩ | ⟨_, _, h⟩
  · rw [h]
    simp only [updateNamespace, hi]
    rfl
  · rw [h]
    simp only [updateNamespace, hu]
    rfl
  · rw [h, h]

theorem updateNamespace_pid (sb : Sandbox) (h : ns.type = "pid") : updateNamespace sb ns = ns := by
  rw [updateNamespace, if_pos h]

theorem updateNamespace_ipc (sb : Sandbox) (h : ns.type = "ipc") :
    (updateNamespace sb ns).path = sb.sharedIpcns := by
  rcases updateNamespace_cases sb ns with ⟨_, hu⟩ | ⟨ht, _⟩ | ⟨hn, _, _⟩
  · rw [hu]
  · exact absurd (h.symm.trans ht) (by decide)
  · exact absurd h hn

theorem updateNamespace_uts (sb : Sandbox) (h : ns.type = "uts") :
    (updateNamespace sb ns).path = sb.sharedUtsns := by
  rcases updateNamespace_cases sb ns with ⟨ht, _⟩ | ⟨_, hu⟩ | ⟨_, hn, _⟩
  · exact absurd (h.symm.trans ht) (by decide)
  · rw [hu]
  · exact absurd h hn

theorem updateNamespace_other (sb : Sandbox) (h : ¬ns.Managed) : updateNamespace sb ns = ns := by
  rcases updateNamespace_cases sb ns with ⟨hi, _⟩ | ⟨hu, _⟩ | ⟨_, _, h⟩
  · exact absurd (.inr (.inl hi)) h
  · exact absurd (.inr (.inr hu)) h
  · exact h

theorem map_updateNamespace_type (sb : Sandbox) (nss : List LinuxNamespace) :
    (nss.map (updateNamespace sb)).map LinuxNamespace.type = nss.map LinuxNamespace.type := by
  rw [List.map_map]
  apply List.map_congr_left
  intro ns _
  exact updateNamespace_type sb ns

theorem map_updateNamespace_again (sb : Sandbox) (nss : List LinuxNamespace) :
    (nss.map (updateNamespace sb)).map (updateNamespace sb) = nss.map (updateNamespace sb) := by
  rw [List.map_map]
  apply List.map_congr_left
  intro ns _
  exact updateNamespace_again sb ns

theorem filter_updateNamespace (sb : Sandbox) (nss : List LinuxNamespace) :
    ((nss.map (updateNamespace sb)).filter fun ns => ¬ns.Managed) =
      nss.filter fun ns => ¬ns.Managed := by
  induction nss with
  | nil => rfl
  | cons ns nss ih =>
    have hm : (updateNamespace sb ns).Managed ↔ ns.Managed := by
      simp only [LinuxNamespace.Managed, updateNamespace_type]
    rw [List.map_cons, List.filter_cons, List.filter_cons, ih]
    by_cases h : ns.Managed
    · simp only [hm, h, not_true_eq_false, decide_false, Bool.false_eq_true, if_false]
    · simp only [h, not_false_eq_true, decide_true, if_true, updateNamespace_other sb h]

/-- The entries in their order, and a pid namespace of its own where none is there or shared. -/
theorem shareNamespaces_cases (sb : Sandbox) (nss : List LinuxNamespace) :
    (((∃ ns ∈ nss, ns.type = "pid") ∨ sb.sandboxPidNs = true) ∧
        shareNamespaces sb nss = nss.map (updateNamespace sb)) ∨
      shareNamespaces sb nss = nss.map (updateNamespace sb) ++ [⟨"pid", ""⟩] := by
  rw [shareNamespaces]
  cases hp : nss.any (·.type = "pid") with
  | true =>
    obtain ⟨ns, hm, ht⟩ := List.any_eq_true.1 hp
    exact .inl ⟨.inl ⟨ns, hm, of_decide_eq_true ht⟩, rfl⟩
  | false =>
    cases hs : sb.sandboxPidNs with
    | true => exact .inl ⟨.inr rfl, rfl⟩
    | false => exact .inr rfl

theorem mem_shareNamespaces (h : ns ∈ shareNamespaces sb nss) :
    ns = ⟨"pid", ""⟩ ∨ ∃ old ∈ nss, ns = updateNamespace sb old := by
  have hold (hm : ns ∈ nss.map (updateNamespace sb)) :
      ∃ old ∈ nss, ns = updateNamespace sb old := by
    obtain ⟨old, ho, he⟩ := List.mem_map.1 hm
    exact ⟨old, ho, he.symm⟩
  rcases shareNamespaces_cases sb nss with ⟨_, hs⟩ | hs
  · rw [hs] at h
    exact .inr (hold h)
  · rw [hs] at h
    rcases List.mem_append.1 h with h | h
    · exact .inr (hold h)
    · exact .inl (List.mem_singleton.1 h)

theorem mem_shareNamespaces_of_pid (sb : Sandbox) (h : ns ∈ nss) (ht : ns.type = "pid") :
    ns ∈ shareNamespaces sb nss := by
  have hm : ns ∈ nss.map (updateNamespace sb) :=
    List.mem_map.2 ⟨ns, h, updateNamespace_pid sb ht⟩
  rcases shareNamespaces_cases sb nss with ⟨_, hs⟩ | hs
  · rwa [hs]
  · rw [hs]
    exact List.mem_append_left _ hm

theorem exists_pid_shareNamespaces (nss : List LinuxNamespace) (h : sb.sandboxPidNs = false) :
    ∃ ns ∈ shareNamespaces sb nss, ns.type = "pid" := by
  rcases shareNamespaces_cases sb nss with ⟨⟨ns, hm, ht⟩ | hp, _⟩ | hs
  · exact ⟨ns, mem_shareNamespaces_of_pid sb hm ht, ht⟩
  · cases h.symm.trans hp
  · rw [hs]
    exact ⟨⟨"pid", ""⟩, List.mem_append_right _ (List.mem_singleton.2 rfl), rfl⟩

theorem shareNamespaces_again (sb : Sandbox) (nss : List LinuxNamespace) :
    shareNamespaces sb (shareNamespaces sb nss) = shareNamespaces sb nss := by
  have hpid : (shareNamespaces sb nss).any (·.type = "pid") = true ∨ sb.sandboxPidNs = true := by
    cases hs : sb.sandboxPidNs with
    | true => exact .inr rfl
    | false =>
      obtain ⟨ns, hm, ht⟩ := exists_pid_shareNamespaces nss hs
      exact .inl (List.any_eq_true.2 ⟨ns, hm, decide_eq_true ht⟩)
  have hmap : (shareNamespaces sb nss).map (updateNamespace sb) = shareNamespaces sb nss := by
    rcases shareNamespaces_cases sb nss with ⟨_, hs⟩ | hs
    · rw [hs, map_updateNamespace_again]
    · rw [hs, List.map_append, map_updateNamespace_again, List.map_singleton,
        updateNamespace_pid sb rfl]
  rw [shareNamespaces.eq_def sb (shareNamespaces sb nss), hmap, if_neg]
  rcases hpid with hp | hp <;> simp [hp]

theorem mem_shareNamespaces_of_ne (h : ns ∈ shareNamespaces sb nss) (ht : ns.type ≠ "pid") :
    ∃ old, old.type = ns.type ∧ ns = updateNamespace sb old := by
  rcases mem_shareNamespaces h with rfl | ⟨old, _, rfl⟩
  · exact absurd rfl ht
  · exact ⟨old, (updateNamespace_type sb old).symm, rfl⟩

theorem shareNamespaces_types (sb : Sandbox) (nss : List LinuxNamespace) :
    ∃ added, (shareNamespaces sb nss).map LinuxNamespace.type =
      nss.map LinuxNamespace.type ++ added ∧ ∀ type ∈ added, type = "pid" := by
  rcases shareNamespaces_cases sb nss with ⟨_, hs⟩ | hs
  · refine ⟨[], ?_, fun _ h => absurd h List.not_mem_nil⟩
    rw [hs, map_updateNamespace_type, List.append_nil]
  · refine ⟨["pid"], ?_, fun _ h => List.mem_singleton.1 h⟩
    rw [hs, List.map_append, map_updateNamespace_type]
    rfl

theorem shareNamespaces_others (sb : Sandbox) (nss : List LinuxNamespace) :
    ((shareNamespaces sb nss).filter fun ns => ¬ns.Managed) =
      nss.filter fun ns => ¬ns.Managed := by
  rcases shareNamespaces_cases sb nss with ⟨_, hs⟩ | hs
  · rw [hs, filter_updateNamespace]
  · rw [hs, List.filter_append, filter_updateNamespace]
    exact List.append_nil _

theorem shareNamespaces_ipc (h : ns ∈ shareNamespaces sb nss) (ht : ns.type = "ipc") :
    ns.path = sb.sharedIpcns := by
  obtain ⟨old, ho, rfl⟩ := mem_shareNamespaces_of_ne h (by rw [ht]; decide)
  exact updateNamespace_ipc sb (ho.trans ht)

theorem shareNamespaces_uts (h : ns ∈ shareNamespaces sb nss) (ht : ns.type = "uts") :
    ns.path = sb.sharedUtsns := by
  obtain ⟨old, ho, rfl⟩ := mem_shareNamespaces_of_ne h (by rw [ht]; decide)
  exact updateNamespace_uts sb (ho.trans ht)

theorem shareNamespaces_pid (hp : ∀ ns ∈ nss, ns.type = "pid" → ns.path = "")
    (h : ns ∈ shareNamespaces sb nss) (ht : ns.type = "pid") : ns.path = "" := by
  rcases mem_shareNamespaces h with rfl | ⟨old, ho, rfl⟩
  · rfl
  · rw [updateNamespace_type] at ht
    rw [updateNamespace_pid sb ht]
    exact hp old ho ht

/-- A container gets only namespaces of the sandbox or its own exactly when the host sends no
path with a pid namespace. -/
theorem updateContainerNamespaces_shared_iff (sb : Sandbox) (spec spec' : Spec)
    (h : updateContainerNamespaces sb spec = .ok spec') :
    NamespacesShared sb spec spec' ↔
      ∀ ns ∈ spec.namespaces, ns.type = "pid" → ns.path = "" := by
  cases hl : spec.linux with
  | none =>
    rw [updateContainerNamespaces, hl] at h
    cases h
  | some linux =>
    rw [updateContainerNamespaces_eq sb hl] at h
    cases h
    have hold : spec.namespaces = linux.namespaces := by rw [Spec.namespaces, hl]
    constructor
    · intro hs ns hm ht
      rw [hold] at hm
      by_contra hp
      have hn := mem_shareNamespaces_of_pid sb hm ht
      exact hs.pid ns hn ht hp ns (hold ▸ hm) ht rfl
    · intro hp
      rw [hold] at hp
      exact {
        ipc := fun _ => shareNamespaces_ipc
        uts := fun _ => shareNamespaces_uts
        pid := fun _ hm ht hne => absurd (shareNamespaces_pid hp hm ht) hne
        ownPid := exists_pid_shareNamespaces linux.namespaces
        types := hold ▸ shareNamespaces_types sb linux.namespaces
        others := hold ▸ shareNamespaces_others sb linux.namespaces
        frame := by
          rw [hl]
          rfl
        again := by rw [updateContainerNamespaces_eq sb rfl, shareNamespaces_again] }

def sharingSandbox : Sandbox where
  containers := ∅
  containerMounts := ∅
  storages := ∅
  sharedUtsns := "/var/run/sandbox-ns/uts"
  sharedIpcns := "/var/run/sandbox-ns/ipc"
  noPivotRoot := false
  sandboxPidNs := false

def namespaceSpec (namespaces : List LinuxNamespace) : Spec where
  process := none
  root := none
  hostname := ""
  hooks := none
  linux := some
    { uidMappings := []
      gidMappings := []
      sysctl := []
      resources := none
      namespaces := namespaces
      devices := [] }

theorem updateContainerNamespaces_shared_iff_ipc :
    NamespacesShared sharingSandbox (namespaceSpec [⟨"ipc", "/proc/7/ns/ipc"⟩, ⟨"mount", ""⟩])
        (namespaceSpec [⟨"ipc", "/var/run/sandbox-ns/ipc"⟩, ⟨"mount", ""⟩, ⟨"pid", ""⟩]) ↔
      ∀ ns ∈ (namespaceSpec [⟨"ipc", "/proc/7/ns/ipc"⟩, ⟨"mount", ""⟩]).namespaces,
        ns.type = "pid" → ns.path = "" :=
  updateContainerNamespaces_shared_iff _ _ _ (by decide)

/-- A pid namespace is handed on with the path that it has on the host. -/
theorem updateContainerNamespaces_not_shared :
    ¬ ∀ sb spec spec', updateContainerNamespaces sb spec = .ok spec' →
      NamespacesShared sb spec spec' := by
  intro h
  have hs := h sharingSandbox (namespaceSpec [⟨"pid", "/proc/7/ns/pid"⟩]) _
    (updateContainerNamespaces_eq _ rfl)
  exact hs.pid ⟨"pid", "/proc/7/ns/pid"⟩ (by decide) rfl (by decide) ⟨"pid", "/proc/7/ns/pid"⟩
    (by decide) rfl rfl

end KataAgent
