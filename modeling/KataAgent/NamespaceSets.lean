import KataAgent.Validator
import KataAgent.ContainerStart
import KataAgent.SharedNamespaces
import Mathlib.Data.List.TakeWhile

namespace KataAgent
open Fallible
set_option autoImplicit true

def NAMESPACES : List (String × CloneFlag) :=
  [("user", .newUser), ("ipc", .newIpc), ("pid", .newPid), ("network", .newNet), ("mount", .newNs),
    ("uts", .newUts), ("cgroup", .newCgroup)]

def TYPETONAME : List (String × String) :=
  [("ipc", "ipc"), ("user", "user"), ("pid", "pid"), ("network", "net"), ("mount", "mnt"),
    ("cgroup", "cgroup"), ("uts", "uts")]

/-- The guest as `start` asks it for namespaces. -/
structure NamespaceGuest where
  readLink : String → Except String String
  getpid : Nat
  /-- The descriptor of a file, after the ones opened before; `none` stands for an invalid path. -/
  openFile : List String → String → Except (Option Errno) RawFd

/-- What `start` has collected; `opened` are the namespace files it opened. -/
structure NamespaceSets where
  toNew : Finset CloneFlag
  toJoin : List (CloneFlag × RawFd)
  pidns : Bool
  opened : List String

def NamespaceSets.empty : NamespaceSets := ⟨∅, [], false, []⟩

/-- The loop over the keys of `NAMESPACES` in `get_namespaces`, for an order of them. -/
def processNamespaces (g : NamespaceGuest) (initPid : Nat) :
    List String → Outcome ErrorKind (List LinuxNamespace)
  | [] => return []
  | i :: keys => do
    let name ← Outcome.ofUnwrap (TYPETONAME.lookup i)
    let nsPath := "/proc/" ++ toString initPid ++ "/ns/" ++ name
    let nsPathBuf ← ioOutcome (g.readLink nsPath)
    let initNsPathBuf ← ioOutcome (g.readLink ("/proc/" ++ toString g.getpid ++ "/ns/" ++ name))
    let rest ← processNamespaces g initPid keys
    -- a namespace of the system's init is not joined
    if components nsPathBuf.toList = components initNsPathBuf.toList then return rest
    else return ⟨i, nsPath⟩ :: rest

def getNamespaces (g : NamespaceGuest) (keys : List String) (linux : Grpc.Linux) (init : Bool)
    (initPid : Nat) : Outcome ErrorKind (List LinuxNamespace) :=
  if init then return linux.namespaces else processNamespaces g initPid keys

/-- The answer to opening a file; an error without an errno is unwrapped for the log. -/
def openedFd : Except (Option Errno) RawFd → Outcome ErrorKind RawFd
  | .ok fd => .ok fd
  | .error (some e) => .err (.nix e)
  | .error none => .panic

/-- The body of the loop of `start` over the namespaces. -/
def addNamespace (g : NamespaceGuest) (ns : LinuxNamespace) : Act NamespaceSets ErrorKind Unit :=
  match NAMESPACES.lookup ns.type with
  | none => Act.fail (.errorCode "invalid ns type")
  | some s => do
    if ns.path = "" then Act.modify fun t => { t with toNew := insert s t.toNew }
    else do
      let opened ← Act.read NamespaceSets.opened
      let fd ← Act.lift (openedFd (g.openFile opened ns.path))
      Act.modify fun t =>
        { t with toJoin := t.toJoin ++ [(s, fd)], opened := t.opened ++ [ns.path] }
    Act.modify fun t => { t with pidns := t.pidns || s = .newPid }

/-- The part of `start` that builds the sets of namespaces. -/
def startNamespaces (g : NamespaceGuest) (keys : List String) (linux : Grpc.Linux) (init : Bool)
    (initPid : Nat) : Act NamespaceSets ErrorKind Unit := do
  let nses ← Act.lift (getNamespaces g keys linux init initPid)
  nses.forM (addNamespace g)

/-- No namespace is in the sets twice, and no file was opened twice. -/
structure NamespaceSets.Once (t : NamespaceSets) : Prop where
  joined : (t.toJoin.map Prod.fst).Nodup
  apart : ∀ s ∈ t.toJoin.map Prod.fst, s ∉ t.toNew
  files : t.opened.Nodup

/-- The type is one of `NAMESPACES`. -/
def LinuxNamespace.Known (ns : LinuxNamespace) : Prop := (NAMESPACES.lookup ns.type).isSome

instance (ns : LinuxNamespace) : Decidable ns.Known := inferInstanceAs (Decidable (_ = true))

/-- The namespaces before the first one of an unknown type, where `start` stops. -/
def knownNamespaces (nses : List LinuxNamespace) : List LinuxNamespace :=
  nses.takeWhile fun ns => ns.Known

/-- The namespaces with a path. -/
def joining (nses : List LinuxNamespace) : List LinuxNamespace := nses.filter fun ns => ns.path ≠ ""

/-- What is joined has types and paths of its own, and no namespace without a path has such a
type. -/
structure JoinedOnce (nses : List LinuxNamespace) : Prop where
  types : ((joining nses).map LinuxNamespace.type).Nodup
  paths : ((joining nses).map LinuxNamespace.path).Nodup
  apart : ∀ ns ∈ joining nses, ∀ other ∈ nses, other.path = "" → other.type ≠ ns.type

def LinuxNamespace.flag (ns : LinuxNamespace) : CloneFlag :=
  (NAMESPACES.lookup ns.type).getD .newUser

/-- The sets are the ones for these namespaces. -/
structure Collected (nses : List LinuxNamespace) (t : NamespaceSets) : Prop where
  joined : t.toJoin.map Prod.fst = (joining nses).map LinuxNamespace.flag
  new : ∀ s, s ∈ t.toNew ↔ ∃ ns ∈ nses, ns.path = "" ∧ ns.flag = s
  files : t.opened = (joining nses).map LinuxNamespace.path

section
variable {g : NamespaceGuest} {t t' : NamespaceSets} {ns : LinuxNamespace}
  {nses pre : List LinuxNamespace} {o : Outcome ErrorKind Unit}

theorem knownNamespaces_cons (h : ns.Known) :
    knownNamespaces (ns :: nses) = ns :: knownNamespaces nses :=
  List.takeWhile_cons_of_pos (decide_eq_true h)

theorem knownNamespaces_cons_of_not (h : ¬ ns.Known) : knownNamespaces (ns :: nses) = [] :=
  List.takeWhile_cons_of_neg (by simpa using h)

theorem known_of_mem (h : ns ∈ knownNamespaces nses) : ns.Known := by
  have hd := List.mem_takeWhile_imp (p := fun ns : LinuxNamespace => decide ns.Known) h
  exact of_decide_eq_true hd

theorem joining_append_unjoined (h : ns.path = "") : joining (nses ++ [ns]) = joining nses := by
  rw [joining, List.filter_append, List.filter_cons_of_neg (by simpa using h), List.filter_nil,
    List.append_nil, joining]

theorem joining_append_joined (h : ns.path ≠ "") :
    joining (nses ++ [ns]) = joining nses ++ [ns] := by
  rw [joining, List.filter_append, List.filter_cons_of_pos (by simpa using h), List.filter_nil,
    joining]

theorem Collected.empty : Collected [] .empty where
  joined := rfl
  new s := iff_of_false (Finset.notMem_empty s) (by rintro ⟨ns, h, -⟩; cases h)
  files := rfl

theorem Collected.unjoined (h : Collected nses t) (hp : ns.path = "") :
    Collected (nses ++ [ns])
      { t with toNew := insert ns.flag t.toNew, pidns := t.pidns || ns.flag = .newPid } where
  joined := by rw [joining_append_unjoined hp, h.joined]
  files := by rw [joining_append_unjoined hp, h.files]
  new s := by
    rw [Finset.mem_insert, h.new, or_comm, eq_comm (a := s)]
    simp only [List.mem_append, List.mem_singleton, or_and_right, exists_or, exists_eq_left, hp,
      true_and]

theorem Collected.join (h : Collected nses t) (hp : ns.path ≠ "") (fd : RawFd) :
    Collected (nses ++ [ns])
      { t with
        toJoin := t.toJoin ++ [(ns.flag, fd)]
        opened := t.opened ++ [ns.path]
        pidns := t.pidns || ns.flag = .newPid } where
  joined := by
    rw [joining_append_joined hp, List.map_append, List.map_append, h.joined]
    rfl
  files := by
    rw [joining_append_joined hp, List.map_append, h.files]
    rfl
  new s := by
    rw [h.new]
    simp only [List.mem_append, List.mem_singleton, or_and_right, exists_or, exists_eq_left, hp,
      false_and, or_false]

theorem LinuxNamespace.Known.lookup (h : ns.Known) : NAMESPACES.lookup ns.type = some ns.flag := by
  obtain ⟨s, hs⟩ := Option.isSome_iff_exists.1 h
  rw [LinuxNamespace.flag, hs, Option.getD_some]

/-- A pass of the loop adds its namespace, or ends it without a change. -/
theorem addNamespace_cases (h : Collected nses t) (hrun : addNamespace g ns t = (o, t')) :
    (o = .ok () ∧ ns.Known ∧ Collected (nses ++ [ns]) t') ∨ (o ≠ .ok () ∧ t' = t) := by
  by_cases hk : ns.Known
  · rw [addNamespace, hk.lookup] at hrun
    dsimp only at hrun
    by_cases hp : ns.path = ""
    · rw [if_pos hp] at hrun
      cases hrun
      exact .inl ⟨rfl, hk, h.unjoined hp⟩
    · rw [if_neg hp] at hrun
      cases hf : g.openFile t.opened ns.path with
      | ok fd =>
        rw [Act.bind_ok (Act.read_apply _), hf] at hrun
        cases hrun
        exact .inl ⟨rfl, hk, h.join hp fd⟩
      | error e =>
        rw [Act.bind_ok (Act.read_apply _), hf] at hrun
        cases e with
        | none =>
          cases hrun
          exact .inr ⟨nofun, rfl⟩
        | some e =>
          cases hrun
          exact .inr ⟨nofun, rfl⟩
  · have hl : NAMESPACES.lookup ns.type = none := by
      rwa [LinuxNamespace.Known, Option.not_isSome_iff_eq_none] at hk
    rw [addNamespace, hl] at hrun
    cases hrun
    exact .inr ⟨nofun, rfl⟩

/-- Where every file can be opened, a pass for a known type goes on. -/
theorem addNamespace_opens (hopen : ∀ opened path, ∃ fd, g.openFile opened path = .ok fd)
    (hk : ns.Known) : (addNamespace g ns t).1 = .ok () := by
  rw [addNamespace, hk.lookup]
  dsimp only
  by_cases hp : ns.path = ""
  · rw [if_pos hp]
    rfl
  · obtain ⟨fd, hfd⟩ := hopen t.opened ns.path
    rw [if_neg hp, Act.bind_ok (Act.read_apply _), hfd]
    rfl

/-- The loop leaves the sets of the namespaces up to the one it stopped at, which has an unknown
type where every file can be opened. -/
theorem forM_addNamespace (h : Collected pre t) :
    ∃ done, done <+: knownNamespaces nses ∧
      Collected (pre ++ done) (nses.forM (addNamespace g) t).2 ∧
        ((∀ opened path, ∃ fd, g.openFile opened path = .ok fd) → done = knownNamespaces nses) := by
  induction nses generalizing pre t with
  | nil => exact ⟨[], List.nil_prefix, by rw [List.append_nil]; exact h, fun _ => rfl⟩
  | cons ns nses ih =>
    have hcons : (ns :: nses).forM (addNamespace g) =
        addNamespace g ns >>= fun _ => nses.forM (addNamespace g) := rfl
    rw [hcons, Act.bind_apply]
    rcases hrun : addNamespace g ns t with ⟨o, t'⟩
    rcases addNamespace_cases h hrun with ⟨rfl, hk, hnext⟩ | ⟨ho, rfl⟩
    · obtain ⟨done, hdone, hend, hall⟩ := ih hnext
      apply Exists.intro (ns :: done)
      rw [knownNamespaces_cons hk, List.cons_prefix_cons]
      rw [List.append_assoc, List.singleton_append] at hend
      exact ⟨⟨rfl, hdone⟩, hend, fun hopen => by rw [hall hopen]⟩
    · apply Exists.intro []
      apply And.intro List.nil_prefix
      rw [List.append_nil]
      constructor
      · cases o with
        | ok u => exact absurd rfl ho
        | err e => exact h
        | panic => exact h
      · intro hopen
        have hk : ¬ ns.Known := by
          intro hk
          have hok := addNamespace_opens hopen hk (t := t')
          rw [hrun] at hok
          exact ho hok
        rw [knownNamespaces_cons_of_not hk]

theorem flag_injective : ∀ e ∈ NAMESPACES, ∀ e' ∈ NAMESPACES, e.2 = e'.2 → e.1 = e'.1 := by
  decide

/-- A known type is told by its flag. -/
theorem type_eq_of_flag {other : LinuxNamespace} (hn : ns.Known) (ho : other.Known)
    (h : ns.flag = other.flag) : ns.type = other.type :=
  flag_injective _ (Table.mem_of_lookup hn.lookup) _ (Table.mem_of_lookup ho.lookup) h

theorem flag_eq_of_type {other : LinuxNamespace} (h : ns.type = other.type) :
    ns.flag = other.flag := by
  rw [LinuxNamespace.flag, LinuxNamespace.flag, h]

theorem nodup_flag_iff (h : ∀ ns ∈ nses, ns.Known) :
    (nses.map LinuxNamespace.flag).Nodup ↔ (nses.map LinuxNamespace.type).Nodup := by
  rw [List.Nodup, List.Nodup, List.pairwise_map, List.pairwise_map]
  apply List.Pairwise.iff_of_mem
  intro a b ha hb
  exact not_congr ⟨type_eq_of_flag (h a ha) (h b hb), flag_eq_of_type⟩

theorem Collected.once_iff (h : Collected nses t) (hk : ∀ ns ∈ nses, ns.Known) :
    t.Once ↔ JoinedOnce nses := by
  have hjoining : ∀ ns ∈ joining nses, ns.Known := fun ns hns => hk ns (List.mem_filter.1 hns).1
  have happart : (∀ s ∈ t.toJoin.map Prod.fst, s ∉ t.toNew) ↔
      ∀ ns ∈ joining nses, ∀ other ∈ nses, other.path = "" → other.type ≠ ns.type := by
    rw [h.joined, List.forall_mem_map]
    apply forall₂_congr
    intro ns hns
    rw [h.new]
    constructor
    · intro hno other hother hp htype
      exact hno ⟨other, hother, hp, flag_eq_of_type htype⟩
    · rintro hno ⟨other, hother, hp, hflag⟩
      exact hno other hother hp (type_eq_of_flag (hk other hother) (hjoining ns hns) hflag)
  constructor
  · intro ho
    have htypes := ho.joined
    rw [h.joined, nodup_flag_iff hjoining] at htypes
    exact ⟨htypes, h.files ▸ ho.files, happart.1 ho.apart⟩
  · intro hj
    have hflags := (nodup_flag_iff hjoining).2 hj.types
    rw [← h.joined] at hflags
    exact ⟨hflags, happart.2 hj.apart, h.files ▸ hj.paths⟩

theorem JoinedOnce.of_prefix (h : JoinedOnce nses) (hp : pre <+: nses) : JoinedOnce pre := by
  have hsub : (joining pre).Sublist (joining nses) := hp.sublist.filter _
  constructor
  · exact h.types.sublist (hsub.map _)
  · exact h.paths.sublist (hsub.map _)
  · intro ns hns other hother
    exact h.apart ns (hsub.subset hns) other (hp.subset hother)

theorem startNamespaces_init {keys : List String} {linux : Grpc.Linux} {initPid : Nat} :
    startNamespaces g keys linux true initPid = linux.namespaces.forM (addNamespace g) := rfl

end

/-- The sets of an init process are duplicate free, whatever files can be opened, exactly where
every type is joined at most once, and not made as well. -/
theorem startNamespaces_once_iff (keys : List String) (linux : Grpc.Linux) (initPid : Nat) :
    (∀ g, (startNamespaces g keys linux true initPid .empty).2.Once) ↔
      JoinedOnce (knownNamespaces linux.namespaces) := by
  have hloop (g : NamespaceGuest) : ∃ done, done <+: knownNamespaces linux.namespaces ∧
      Collected done (linux.namespaces.forM (addNamespace g) .empty).2 ∧
        ((∀ opened path, ∃ fd, g.openFile opened path = .ok fd) →
          done = knownNamespaces linux.namespaces) := forM_addNamespace .empty
  constructor
  · intro h
    let g : NamespaceGuest := ⟨.ok, 1, fun _ _ => .ok 3⟩
    obtain ⟨done, -, hend, hall⟩ := hloop g
    rw [hall fun _ _ => ⟨3, rfl⟩] at hend
    exact (hend.once_iff fun ns => known_of_mem).1 (h _)
  · intro h g
    rw [startNamespaces_init]
    obtain ⟨done, hdone, hend, -⟩ := hloop g
    apply (hend.once_iff fun ns hns => known_of_mem (hdone.subset hns)).2
    exact h.of_prefix hdone

/-- The update of the list keeps types apart that were. -/
theorem nodup_shareNamespaces (sb : Sandbox) {nses : List LinuxNamespace}
    (h : (nses.map LinuxNamespace.type).Nodup) :
    ((shareNamespaces sb nses).map LinuxNamespace.type).Nodup := by
  rw [shareNamespaces]
  split
  · rename_i hadd
    have hpid : "pid" ∉ nses.map LinuxNamespace.type := by
      intro hmem
      obtain ⟨ns, hns, htype⟩ := List.mem_map.1 hmem
      have hany : nses.any (·.type = "pid") = true :=
        List.any_eq_true.2 ⟨ns, hns, decide_eq_true htype⟩
      rw [hany, Bool.not_true, Bool.false_and] at hadd
      cases hadd
    rw [List.map_append, map_updateNamespace_type, List.map_singleton]
    apply List.nodup_append.2
    apply And.intro h
    apply And.intro (List.nodup_singleton _)
    intro a ha b hb hab
    have hpid' : b = "pid" := List.mem_singleton.1 hb
    rw [hab, hpid'] at ha
    exact hpid ha
  · rw [map_updateNamespace_type]
    exact h

/-- A request that names each type once leads to sets without duplicates, as long as no file is
named for two types. -/
theorem joinedOnce_shareNamespaces (sb : Sandbox) {nses : List LinuxNamespace}
    (h : (nses.map LinuxNamespace.type).Nodup)
    (hpaths : ((joining (shareNamespaces sb nses)).map LinuxNamespace.path).Nodup) :
    JoinedOnce (shareNamespaces sb nses) := by
  have hnodup := nodup_shareNamespaces sb h
  have hsub : (joining (shareNamespaces sb nses)).Sublist (shareNamespaces sb nses) :=
    List.filter_sublist
  constructor
  · exact hnodup.sublist (hsub.map _)
  · exact hpaths
  · intro ns hns other hother hp htype
    obtain ⟨hmem, hne⟩ := List.mem_filter.1 hns
    have heq := List.inj_on_of_nodup_map hnodup hother hmem htype
    rw [heq] at hp
    exact of_decide_eq_true hne hp

/-- A network namespace that is to be joined and to be made. -/
def twiceLinux : Grpc.Linux :=
  { Grpc.Linux.empty with namespaces := [⟨"network", "/run/netns/pod"⟩, ⟨"network", ""⟩] }

def twiceConfig : Config where
  spec := some { Grpc.Spec.empty with linux := some twiceLinux, root := some ⟨"/", false⟩ }
  rootlessEuid := false

def twiceGuest : ValidatorGuest where
  present := fun _ => true
  canonicalize := .ok
  readLink := fun _ => .ok []
  isSymlink := fun _ => .ok false

/-- The validator accepts the list, and the same type is in both sets. -/
theorem startNamespaces_twice : validate twiceGuest [] true twiceConfig = .ok () ∧
    ∃ g, ¬ (startNamespaces g [] twiceLinux true 1 .empty).2.Once := by
  constructor
  · decide
  · apply Exists.intro ⟨fun _ => .ok "", 1, fun _ _ => .ok 3⟩
    intro h
    exact h.apart .newNet (by decide) (by decide)

end KataAgent
