import KataAgent.Validator

namespace KataAgent
open Fallible
set_option autoImplicit true

/-- The keys that need a namespace for the objects of System V and for message queues. -/
def IpcKey (key : String) : Prop := key ∈ SYSCTLS ∨ startsWith key "fs.mqueue."

instance (key : String) : Decidable (IpcKey key) := inferInstanceAs (Decidable (_ ∨ _))

def HasNamespace (nses : List LinuxNamespace) (type : String) : Prop := ∃ n ∈ nses, n.type = type

/-- A network namespace that is to be made, or that is not the agent's own. -/
def ForeignNetwork (g : ValidatorGuest) (nses : List LinuxNamespace) : Prop :=
  ∃ n ∈ nses, n.type = "network" ∧ (n.path = "" ∨ checkHostNs g n.path = .ok ())

/-- The key concerns nothing outside the namespaces of the container. -/
def SysctlAllowed (g : ValidatorGuest) (nses : List LinuxNamespace) (key : String) : Prop :=
  (IpcKey key ∧ HasNamespace nses "ipc") ∨
    (startsWith key "net." ∧ ForeignNetwork g nses) ∨
      (key = "kernel.domainname" ∧ HasNamespace nses "uts")

/-- What the loop lets pass: of the `net.` keys only those of a namespace that is to be made. -/
def SysctlPassed (nses : List LinuxNamespace) (key : String) : Prop :=
  (IpcKey key ∧ HasNamespace nses "ipc") ∨
    (startsWith key "net." ∧ getNamespacePath nses "network" = .ok "") ∨
      (key = "kernel.domainname" ∧ HasNamespace nses "uts")

section
variable {g : ValidatorGuest} {nses : List LinuxNamespace} {key type path : String}

theorem containNamespace_iff : containNamespace nses key = true ↔ HasNamespace nses key := by
  rw [containNamespace, List.any_eq_true, HasNamespace]
  simp only [decide_eq_true_eq]

theorem getNamespacePath_eq_ok (h : getNamespacePath nses key = .ok path) :
    ∃ n ∈ nses, n.type = key ∧ n.path = path := by
  rw [getNamespacePath] at h
  cases hf : nses.find? fun ns => ns.type = key with
  | none =>
    rw [hf] at h
    cases h
  | some n =>
    rw [hf] at h
    cases h
    have htype := List.find?_some hf
    exact ⟨n, List.mem_of_find?_eq_some hf, of_decide_eq_true htype, rfl⟩

theorem getNamespacePath_isOk (h : HasNamespace nses key) :
    ∃ path, getNamespacePath nses key = .ok path := by
  obtain ⟨n, hn, htype⟩ := h
  have hsome : (nses.find? fun ns => ns.type = key).isSome :=
    List.find?_isSome.2 ⟨n, hn, decide_eq_true htype⟩
  obtain ⟨m, hm⟩ := Option.isSome_iff_exists.1 hsome
  exact ⟨m.path, by rw [getNamespacePath, hm]⟩

theorem startsWith_net_not_mqueue (h : startsWith key "net.") :
    ¬ startsWith key "fs.mqueue." := by
  intro hq
  obtain ⟨r, hr⟩ := h
  obtain ⟨s, hs⟩ := hq
  cases hr.trans hs.symm

theorem sysctls_not_net : ∀ key ∈ SYSCTLS, ¬ startsWith key "net." := by decide

theorem IpcKey.not_net (h : IpcKey key) : ¬ startsWith key "net." := by
  rcases h with h | h
  · exact sysctls_not_net key h
  · intro hnet
    exact startsWith_net_not_mqueue hnet h

theorem domainname_group : ¬ IpcKey "kernel.domainname" ∧
    ¬ startsWith "kernel.domainname" "net." := by
  decide

theorem sysctlUts_eq_ok : sysctlUts nses key = .ok () ↔
    key = "kernel.domainname" ∧ HasNamespace nses "uts" := by
  rw [sysctlUts, ← containNamespace_iff]
  by_cases hu : containNamespace nses "uts" = true
  · rw [if_pos hu]
    by_cases hk : key = "kernel.domainname"
    · rw [if_pos hk]
      exact iff_of_true rfl ⟨hk, hu⟩
    · rw [if_neg hk, ite_self]
      exact iff_of_false nofun fun h => hk h.1
  · rw [if_neg hu]
    exact iff_of_false nofun fun h => hu h.2

theorem sysctlKey_ipc (h : IpcKey key) :
    sysctlKey g nses key = .ok () ↔ HasNamespace nses "ipc" := by
  have hi : key ∈ SYSCTLS ∨ startsWith key "fs.mqueue." := h
  rw [sysctlKey, if_pos hi, ← containNamespace_iff]
  split
  · rename_i hc
    exact iff_of_true rfl hc
  · rename_i hc
    exact iff_of_false nofun hc

/-- A key of the network passes where the path is empty; the success of the comparison with the
agent's own namespace is followed by the final rejection. -/
theorem sysctlKey_net (h : startsWith key "net.") :
    sysctlKey g nses key = .ok () ↔ getNamespacePath nses "network" = .ok "" := by
  have hi : ¬ (key ∈ SYSCTLS ∨ startsWith key "fs.mqueue.") := fun hi => IpcKey.not_net hi h
  rw [sysctlKey, if_neg hi, if_pos h]
  by_cases hc : containNamespace nses "network" = true
  · obtain ⟨path, hpath⟩ := getNamespacePath_isOk (containNamespace_iff.1 hc)
    rw [hc, Bool.not_true, if_neg Bool.false_ne_true, hpath, Outcome.ok_bind, Outcome.ok.injEq]
    by_cases he : path = ""
    · rw [if_pos he]
      exact iff_of_true rfl he
    · rw [if_neg he]
      apply iff_of_false _ he
      intro h'
      obtain ⟨u, -, huts⟩ := Outcome.bind_eq_ok.1 h'
      exact domainname_group.2 ((sysctlUts_eq_ok.1 huts).1 ▸ h)
  · rw [Bool.eq_false_iff.2 hc, Bool.not_false, if_pos rfl]
    apply iff_of_false nofun
    intro h'
    obtain ⟨n, hmem, htype, -⟩ := getNamespacePath_eq_ok h'
    exact hc (containNamespace_iff.2 ⟨n, hmem, htype⟩)

theorem sysctlKey_other (hi : ¬ IpcKey key) (hn : ¬ startsWith key "net.") :
    sysctlKey g nses key = .ok () ↔ key = "kernel.domainname" ∧ HasNamespace nses "uts" := by
  have hi' : ¬ (key ∈ SYSCTLS ∨ startsWith key "fs.mqueue.") := hi
  rw [sysctlKey, if_neg hi', if_neg hn, sysctlUts_eq_ok]

theorem sysctlKey_eq_ok : sysctlKey g nses key = .ok () ↔ SysctlPassed nses key := by
  rw [SysctlPassed]
  by_cases hi : IpcKey key
  · have hd : ¬ (key = "kernel.domainname" ∧ HasNamespace nses "uts") := by
      intro hd
      exact domainname_group.1 (hd.1 ▸ hi)
    rw [sysctlKey_ipc hi, and_iff_right hi, or_iff_left hd, or_iff_left fun h => hi.not_net h.1]
  rw [or_iff_right fun h => hi h.1]
  by_cases hn : startsWith key "net."
  · have hd : ¬ (key = "kernel.domainname" ∧ HasNamespace nses "uts") := by
      intro hd
      exact domainname_group.2 (hd.1 ▸ hn)
    rw [sysctlKey_net hn, and_iff_right hn, or_iff_left hd]
  · rw [sysctlKey_other hi hn, or_iff_right fun h => hn h.1]

/-- The loop lets nothing pass that the rules exclude. -/
theorem SysctlPassed.allowed (h : SysctlPassed nses key) : SysctlAllowed g nses key := by
  rcases h with h | ⟨hnet, hpath⟩ | h
  · exact .inl h
  · obtain ⟨n, hmem, htype, he⟩ := getNamespacePath_eq_ok hpath
    exact .inr (.inl ⟨hnet, n, hmem, htype, .inl he⟩)
  · exact .inr (.inr h)

theorem SysctlAllowed.passed (h : SysctlAllowed g nses key)
    (hnet : startsWith key "net." → getNamespacePath nses "network" = .ok "") :
    SysctlPassed nses key := by
  rcases h with h | ⟨hn, -⟩ | h
  · exact .inl h
  · exact .inr (.inl ⟨hn, hnet hn⟩)
  · exact .inr (.inr h)

theorem exists_keyOrder (m : Table String String) : ∃ keys, KeyOrder m keys :=
  ⟨m.keys.toList, m.keys.nodup_toList, fun k => by rw [Finset.mem_toList, Finmap.mem_keys]⟩

theorem sysctl_eq_ok {oci : Grpc.Spec} {linux : Grpc.Linux} {keys : List String}
    (h : oci.linux = some linux) (hkeys : KeyOrder linux.sysctl keys) :
    sysctl g keys oci = .ok () ↔ ∀ key ∈ linux.sysctl, SysctlPassed linux.namespaces key := by
  rw [sysctl, h, Outcome.ofUnwrap_some, Outcome.ok_bind, Outcome.forM_eq_ok]
  simp only [sysctlKey_eq_ok, hkeys.mem]

end

/-- The check accepts what the rules allow, in any order of the keys, where no `net.` key comes
with a network namespace that is joined. -/
theorem sysctl_iff (g : ValidatorGuest) (oci : Grpc.Spec) (linux : Grpc.Linux)
    (h : oci.linux = some linux) :
    (∀ keys, KeyOrder linux.sysctl keys → (sysctl g keys oci = .ok () ↔
      ∀ key ∈ linux.sysctl, SysctlAllowed g linux.namespaces key)) ↔
    (∃ key ∈ linux.sysctl, ¬ SysctlAllowed g linux.namespaces key) ∨
      (∀ key ∈ linux.sysctl, ¬ startsWith key "net.") ∨
        getNamespacePath linux.namespaces "network" = .ok "" := by
  constructor
  · intro hprop
    by_cases hbad : ∃ key ∈ linux.sysctl, ¬ SysctlAllowed g linux.namespaces key
    · exact .inl hbad
    · have hall : ∀ key ∈ linux.sysctl, SysctlAllowed g linux.namespaces key := by
        intro key hkey
        by_contra hno
        exact hbad ⟨key, hkey, hno⟩
      right
      by_cases hnet : ∃ key ∈ linux.sysctl, startsWith key "net."
      · obtain ⟨key, hkey, hnet⟩ := hnet
        obtain ⟨keys, hkeys⟩ := exists_keyOrder linux.sysctl
        have hpassed := (sysctl_eq_ok h hkeys).1 ((hprop keys hkeys).2 hall) key hkey
        rcases hpassed with hi | hn | hd
        · exact absurd hnet hi.1.not_net
        · exact .inr hn.2
        · exact absurd (hd.1 ▸ hnet) domainname_group.2
      · exact .inl fun key hkey hn => hnet ⟨key, hkey, hn⟩
  · intro hcond keys hkeys
    rw [sysctl_eq_ok h hkeys]
    constructor
    · intro hpassed key hkey
      exact (hpassed key hkey).allowed
    · intro hall key hkey
      apply (hall key hkey).passed
      intro hnet
      rcases hcond with ⟨key', hkey', hno⟩ | hno | hpath
      · exact absurd (hall key' hkey') hno
      · exact absurd hnet (hno key hkey)
      · exact hpath

/-- A container with one sysctl, in the namespaces. -/
def sysctlSpec (key : String) (nses : List LinuxNamespace) : Grpc.Spec :=
  { Grpc.Spec.empty with
    linux := some { Grpc.Linux.empty with sysctl := .singleton key "1", namespaces := nses } }

/-- A guest in which the files at namespace paths are mounted, and not links. -/
def netnsGuest : ValidatorGuest where
  present := fun _ => true
  canonicalize := .ok
  readLink := fun _ => .ok "net:[4026531992]".toList
  isSymlink := fun _ => .ok false

theorem keyOrder_singleton (key value : String) : KeyOrder (.singleton key value) [key] where
  nodup := List.nodup_singleton key
  mem k := by rw [List.mem_singleton, Finmap.mem_singleton]

theorem sysctl_newNetwork :
    sysctl netnsGuest ["net.core.somaxconn"]
        (sysctlSpec "net.core.somaxconn" [⟨"network", ""⟩]) = .ok () ↔
      ∀ key ∈ (Finmap.singleton "net.core.somaxconn" "1" : Table String String),
        SysctlAllowed netnsGuest [⟨"network", ""⟩] key :=
  (sysctl_iff netnsGuest (sysctlSpec "net.core.somaxconn" [⟨"network", ""⟩]) _ rfl).2
    (.inr (.inr rfl)) ["net.core.somaxconn"] (keyOrder_singleton _ _)

/-- A `net.` key for a network namespace that is joined and not the agent's own. -/
theorem sysctl_joinedNetwork :
    KeyOrder (.singleton "net.core.somaxconn" "1") ["net.core.somaxconn"] ∧
      (∀ key ∈ (Finmap.singleton "net.core.somaxconn" "1" : Table String String),
        SysctlAllowed netnsGuest [⟨"network", "/run/netns/pod"⟩] key) ∧
        sysctl netnsGuest ["net.core.somaxconn"]
          (sysctlSpec "net.core.somaxconn" [⟨"network", "/run/netns/pod"⟩]) = invalid := by
  have hnet : startsWith "net.core.somaxconn" "net." := by decide
  have hforeign : ForeignNetwork netnsGuest [⟨"network", "/run/netns/pod"⟩] :=
    ⟨⟨"network", "/run/netns/pod"⟩, List.mem_singleton_self _, rfl, .inr rfl⟩
  constructor
  · exact keyOrder_singleton _ _
  constructor
  · intro key hkey
    rw [Finmap.mem_singleton] at hkey
    exact hkey ▸ .inr (.inl ⟨hnet, hforeign⟩)
  · decide

end KataAgent
