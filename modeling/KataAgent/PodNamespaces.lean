import KataAgent.ProcessNamespaces
import KataAgent.Transition

namespace KataAgent
open Fallible LastWrite Namespaces Transition
set_option autoImplicit true

def PERSISTENT_NS_DIR : String := "/var/run/sandbox-ns"

def CLONE_FLAG_TABLE : List (String × CloneFlag) := [("ipc", .newIpc), ("uts", .newUts)]

/-- What the guest answers while a namespace is set up, in a thread of its own. -/
structure PersistentGuest where
  createDirAll : Except String Unit
  createFile : Except String Unit
  pid : Nat
  tid : Nat
  openOrigin : Except String Unit
  unshare : Except String Unit
  /-- The error of `BareMount::mount`, as it is printed for debugging. -/
  mount : Except String Unit

def getCurrentThreadNsPath (g : PersistentGuest) (nsType : String) : String :=
  "/proc/" ++ toString g.pid ++ "/task/" ++ toString g.tid ++ "/ns/" ++ nsType

/-- The namespaces of the guest, numbered as they are made; the agent is in those numbered 0. -/
structure NamespaceTable where
  /-- What is mounted on the files of `PERSISTENT_NS_DIR`, the latest first. -/
  mounted : List (String × Nat)
  made : Nat

def answer : Except ε α → Outcome ε α
  | .ok a => .ok a
  | .error e => .err e

/-- `unshare` moves the thread only. -/
def makeNamespace (g : PersistentGuest) : Act NamespaceTable String Nat := fun t =>
  match g.unshare with
  | .error e => (.err e, t)
  | .ok () => (.ok t.made, { t with made := t.made + 1 })

def setupPersistentNs (g : PersistentGuest) (nsType : String) :
    Act NamespaceTable String String := do
  Act.lift (answer g.createDirAll)
  let newNsPath := PERSISTENT_NS_DIR ++ "/" ++ nsType
  Act.lift (answer g.createFile)
  let originNsPath := getCurrentThreadNsPath g nsType
  Act.lift (answer g.openOrigin)
  if (CLONE_FLAG_TABLE.lookup nsType).isNone then
    Act.fail ("Failed to get ns type " ++ nsType)
  else do
    let n ← makeNamespace g
    match g.mount with
    | .error e =>
      Act.fail ("Failed to mount " ++ originNsPath ++ " to " ++ newNsPath ++ " with err:" ++ e)
    | .ok () =>
      Act.modify fun t => { t with mounted := (newNsPath, n) :: t.mounted }
      return newNsPath

/-- A container, with what its request and the sandbox said when it was created. -/
structure PodContainer where
  requested : List LinuxNamespace
  sandbox : Sandbox
  /-- The number of `CreateSandbox` requests before it. -/
  setups : Nat
  own : CloneFlag → Nat

structure PodState where
  sandbox : Sandbox
  table : NamespaceTable
  setups : Nat
  containers : List PodContainer

def PodState.onSandbox (f : Sandbox → Sandbox) (s : PodState) : PodState :=
  { s with sandbox := f s.sandbox }

/-- `setup_persistent_ns` for the sandbox, which puts its error into a text. -/
def persistNs (g : PersistentGuest) (nsType : String) (text : String → String) :
    Act PodState ErrorKind String := fun s =>
  match setupPersistentNs g nsType s.table with
  | (.ok path, t) => (.ok path, { s with table := t })
  | (.err e, t) => (.err (.errorCode (text e)), { s with table := t })
  | (.panic, t) => (.panic, { s with table := t })

/-- One of the two halves of `setup_shared_namespaces`. -/
def setupSharedNs (g : PersistentGuest) (nsType : String) (text : String → String)
    (set : String → Sandbox → Sandbox) : Act PodState ErrorKind Unit := do
  let ns ← persistNs g nsType text
  Act.modify (PodState.onSandbox (set ns))

def setupSharedNamespaces (ipc uts : PersistentGuest) : Act PodState ErrorKind Bool := do
  setupSharedNs ipc "ipc" (fun err => "Failed to setup persisten IPC namespace with error: " ++ err)
    fun ns sb => { sb with sharedIpcns := ns }
  setupSharedNs uts "uts"
    (fun err => "Failed to setup persisten UTS namespace with error: " ++ err ++ " ")
    fun ns sb => { sb with sharedUtsns := ns }
  return true

/-- What is at a path, where the files outside of `PERSISTENT_NS_DIR` are the host's choice. -/
def NamespaceTable.place (t : NamespaceTable) (elsewhere : String → CloneFlag → Nat) (path : String)
    (k : CloneFlag) : Nat :=
  (t.mounted.lookup path).getD (elsewhere path k)

/-- The arguments that `start` hands on with what it has collected. -/
def NamespaceSets.args (t : NamespaceSets) (a : StartArgs) : StartArgs :=
  { a with
    toNew := t.toNew, toJoin := t.toJoin, pidns := t.pidns
    userns := decide (.newUser ∈ t.toNew) }

/-- `setns` enters the namespace of the file that was opened. -/
def NamespaceTable.kernel (table : NamespaceTable) (elsewhere : String → CloneFlag → Nat)
    (t : NamespaceSets) : NamespaceKernel Nat where
  enters := fun fd k =>
    (((t.toJoin.map Prod.snd).zip t.opened).lookup fd).map fun path => table.place elsewhere path k
  fresh := fun _ => table.made

/-- A create request with what the guest answers to it. -/
structure PodRequest where
  spec : Spec
  guest : NamespaceGuest
  args : StartArgs
  elsewhere : String → CloneFlag → Nat
  /-- Whether all else that the request does succeeds. -/
  succeeds : Bool

/-- The container of a request, in the agent's namespaces where it enters no others. -/
def PodState.container (s : PodState) (r : PodRequest) (t : NamespaceSets) : PodContainer where
  requested := r.spec.namespaces
  sandbox := s.sandbox
  setups := s.setups
  own := (containerMember (s.table.kernel r.elsewhere t) (t.args r.args)
    ⟨fun _ => 0, fun _ => 0⟩).own

/-- A create request leaves nothing where it fails; no two files are open under one descriptor. -/
def PodState.create (s : PodState) (r : PodRequest) : Option PodState :=
  match updateContainerNamespaces s.sandbox r.spec with
  | .ok spec =>
    match spec.namespaces.forM (addNamespace r.guest) .empty with
    | (.ok (), t) =>
      if ¬ (t.toJoin.map Prod.snd).Nodup then none
      else if r.succeeds then some { s with
        table := { s.table with made := s.table.made + 1 }
        containers := s.containers ++ [s.container r t] }
      else some s
    | _ => some s
  | _ => some s

inductive PodAction where
  | createSandbox (ipc uts : PersistentGuest)
  | createContainer (r : PodRequest)

/-- The requests that decide about namespaces, one at a time under the mutex. -/
def podSystem : System PodState PodAction where
  init := fun s => s.table = ⟨[], 1⟩ ∧ s.containers = [] ∧ s.sandbox.sharedIpcns = "" ∧
    s.sandbox.sharedUtsns = "" ∧ s.sandbox.sandboxPidNs = false
  step := fun s x =>
    match x with
    | .createSandbox ipc uts =>
      some (setupSharedNamespaces ipc uts { s with setups := s.setups + 1 }).2
    | .createContainer r => s.create r

/-- The path that a sandbox offers for a type. -/
def Sandbox.sharedNs (sb : Sandbox) (type : String) : String :=
  if type = "ipc" then sb.sharedIpcns else sb.sharedUtsns

def PodContainer.Lists (c : PodContainer) (type : String) : Prop :=
  ∃ ns ∈ c.requested, ns.type = type

/-- The request has no path for the pid namespace. -/
def PodContainer.OwnPid (c : PodContainer) : Prop :=
  ∀ ns ∈ c.requested, ns.type = "pid" → ns.path = ""

/-- The ipc and uts namespaces of the containers: the agent's exactly where the request has none of
the type, one for all since the last `CreateSandbox` where the sandbox offers one, and else one for
each; and each without a path has a pid namespace for itself. -/
structure SharedAmong (containers : List PodContainer) : Prop where
  agent : ∀ e ∈ CLONE_FLAG_TABLE, ∀ c ∈ containers, c.own e.2 = 0 ↔ ¬ c.Lists e.1
  together : ∀ e ∈ CLONE_FLAG_TABLE, ∀ c ∈ containers, ∀ c' ∈ containers, c.setups = c'.setups →
    c.Lists e.1 → c'.Lists e.1 → c.sandbox.sharedNs e.1 ≠ "" → c.own e.2 = c'.own e.2
  apart : ∀ e ∈ CLONE_FLAG_TABLE, containers.Pairwise fun c c' => c.Lists e.1 → c'.Lists e.1 →
    c.sandbox.sharedNs e.1 = "" → c.own e.2 ≠ c'.own e.2
  pid : ∀ c ∈ containers, c.OwnPid → c.own .newPid ≠ 0
  pids : containers.Pairwise fun c c' => c.OwnPid → c'.OwnPid → c.own .newPid ≠ c'.own .newPid

/-- The file of a persistent namespace. -/
def persistentPath (type : String) : String := PERSISTENT_NS_DIR ++ "/" ++ type

/-- What the state says of a container that was created before. -/
structure PodState.Holds (s : PodState) (c : PodContainer) : Prop where
  setups : c.setups ≤ s.setups
  below : ∀ e ∈ CLONE_FLAG_TABLE, c.own e.2 < s.table.made
  pid : c.OwnPid → c.own .newPid < s.table.made
  current : c.setups = s.setups → ∀ e ∈ CLONE_FLAG_TABLE,
    c.sandbox.sharedNs e.1 = s.sandbox.sharedNs e.1
  joined : c.setups = s.setups → ∀ e ∈ CLONE_FLAG_TABLE, c.Lists e.1 →
    c.sandbox.sharedNs e.1 ≠ "" → s.table.mounted.lookup (persistentPath e.1) = some (c.own e.2)
  later : ∀ e ∈ CLONE_FLAG_TABLE, c.Lists e.1 → c.sandbox.sharedNs e.1 = "" →
    ∀ n, s.table.mounted.lookup (persistentPath e.1) = some n → c.own e.2 < n

/-- A path that the sandbox offers has a namespace. -/
structure PodState.Sound (s : PodState) : Prop where
  pidNs : s.sandbox.sandboxPidNs = false
  made : 0 < s.table.made
  mounted : ∀ p ∈ s.table.mounted, 0 < p.2 ∧ p.2 < s.table.made
  offered : ∀ e ∈ CLONE_FLAG_TABLE,
    (s.sandbox.sharedNs e.1 = "" ∧ s.table.mounted.lookup (persistentPath e.1) = none) ∨
      (s.sandbox.sharedNs e.1 = persistentPath e.1 ∧
        ∃ n, s.table.mounted.lookup (persistentPath e.1) = some n)
  holds : ∀ c ∈ s.containers, s.Holds c
  shared : SharedAmong s.containers

section
variable {s s' : PodState} {c : PodContainer} {g : PersistentGuest} {type : String}
  {table table' : NamespaceTable} {o : Outcome String String} {r : PodRequest}

/-- A set up mounts a new namespace as its last step, or else mounts nothing. -/
theorem setupPersistentNs_cases (h : setupPersistentNs g type table = (o, table')) :
    (o = .ok (persistentPath type) ∧
      table' = ⟨(persistentPath type, table.made) :: table.mounted, table.made + 1⟩) ∨
    ((∀ path, o ≠ .ok path) ∧ table'.mounted = table.mounted ∧ table.made ≤ table'.made) := by
  rw [setupPersistentNs] at h
  rcases Act.lift_bind_cases h with ⟨ho, rfl⟩ | ⟨_, h⟩
  · exact .inr ⟨ho, rfl, le_rfl⟩
  rcases Act.lift_bind_cases h with ⟨ho, rfl⟩ | ⟨_, h⟩
  · exact .inr ⟨ho, rfl, le_rfl⟩
  rcases Act.lift_bind_cases h with ⟨ho, rfl⟩ | ⟨_, h⟩
  · exact .inr ⟨ho, rfl, le_rfl⟩
  by_cases htype : (CLONE_FLAG_TABLE.lookup type).isNone
  · rw [if_pos htype] at h
    cases h
    exact .inr ⟨nofun, rfl, le_rfl⟩
  · rw [if_neg htype, Act.bind_apply, makeNamespace] at h
    cases hu : g.unshare with
    | error e =>
      rw [hu] at h
      cases h
      exact .inr ⟨nofun, rfl, le_rfl⟩
    | ok u =>
      rw [hu] at h
      cases hm : g.mount with
      | error e =>
        rw [hm] at h
        cases h
        exact .inr ⟨nofun, rfl, Nat.le_succ _⟩
      | ok u =>
        rw [hm] at h
        cases h
        exact .inl ⟨rfl, rfl⟩

/-- Half of the set up offers a new namespace at the path of the type, or changes nothing. -/
theorem setupSharedNs_cases (text : String → String) (set : String → Sandbox → Sandbox) :
    (setupSharedNs g type text set s).2 = { s with
      sandbox := set (persistentPath type) s.sandbox
      table := ⟨(persistentPath type, s.table.made) :: s.table.mounted, s.table.made + 1⟩ } ∨
    ∃ made ≥ s.table.made, (setupSharedNs g type text set s).2 =
      { s with table := ⟨s.table.mounted, made⟩ } := by
  rw [setupSharedNs, Act.bind_apply, persistNs]
  rcases h : setupPersistentNs g type s.table with ⟨o, t⟩
  rcases setupPersistentNs_cases h with ⟨rfl, rfl⟩ | ⟨ho, hm, hle⟩
  · exact .inl rfl
  · have ht : t = ⟨s.table.mounted, t.made⟩ := by rw [← hm]
    cases o with
    | ok path => exact absurd rfl (ho path)
    | err e => exact .inr ⟨t.made, hle, by rw [← ht]⟩
    | panic => exact .inr ⟨t.made, hle, by rw [← ht]⟩

theorem persistentPath_ne : ∀ e ∈ CLONE_FLAG_TABLE, ∀ e' ∈ CLONE_FLAG_TABLE, e.1 ≠ e'.1 →
    persistentPath e.1 ≠ persistentPath e'.1 := by
  decide

/-- The set up of one type keeps the offer of the other. -/
structure SetsShared (type : String) (set : String → Sandbox → Sandbox) : Prop where
  pidNs : ∀ ns sb, (set ns sb).sandboxPidNs = sb.sandboxPidNs
  offered : ∀ ns sb, (set ns sb).sharedNs type = ns
  kept : ∀ ns sb, ∀ e ∈ CLONE_FLAG_TABLE, e.1 ≠ type → (set ns sb).sharedNs e.1 = sb.sharedNs e.1

/-- No container was created since the sandbox is being set up. -/
def PodState.Opening (s : PodState) : Prop := ∀ c ∈ s.containers, c.setups < s.setups

theorem PodState.Sound.setupSharedNs {k : CloneFlag} {set : String → Sandbox → Sandbox}
    (hs : s.Sound) (ho : s.Opening) (he : (type, k) ∈ CLONE_FLAG_TABLE)
    (hset : SetsShared type set) (text : String → String) :
    (setupSharedNs g type text set s).2.Sound ∧ (setupSharedNs g type text set s).2.Opening := by
  rcases setupSharedNs_cases text set with h | ⟨made, hle, h⟩
  · rw [h]
    refine ⟨⟨(hset.pidNs _ _).trans hs.pidNs, Nat.succ_pos _,
      List.forall_mem_cons.2 ⟨⟨hs.made, Nat.lt_succ_self _⟩, fun p hp =>
        ⟨(hs.mounted p hp).1, (hs.mounted p hp).2.trans (Nat.lt_succ_self _)⟩⟩,
      fun e hmem => ?_, fun c hc => ?_, hs.shared⟩, ho⟩
    · by_cases htype : e.1 = type
      · right
        rw [htype]
        exact ⟨hset.offered _ _, _, List.lookup_cons_self⟩
      · have hne := persistentPath_ne e hmem _ he htype
        rw [hset.kept _ _ e hmem htype, List.lookup_cons, beq_false_of_ne hne]
        exact hs.offered e hmem
    · have hold := hs.holds c hc
      refine ⟨hold.setups, fun e hmem => (hold.below e hmem).trans (Nat.lt_succ_self _),
        fun hp => (hold.pid hp).trans (Nat.lt_succ_self _), fun hc' => absurd hc' (ho c hc).ne,
        fun hc' => absurd hc' (ho c hc).ne, fun e hmem hl hn n hlookup => ?_⟩
      by_cases htype : e.1 = type
      · rw [htype, List.lookup_cons_self] at hlookup
        cases hlookup
        exact hold.below e hmem
      · have hne := persistentPath_ne e hmem _ he htype
        rw [List.lookup_cons, beq_false_of_ne hne] at hlookup
        exact hold.later e hmem hl hn n hlookup
  · rw [h]
    refine ⟨⟨hs.pidNs, hs.made.trans_le hle, fun p hp =>
      ⟨(hs.mounted p hp).1, (hs.mounted p hp).2.trans_le hle⟩, hs.offered, fun c hc => ?_,
      hs.shared⟩, ho⟩
    have hold := hs.holds c hc
    exact ⟨hold.setups, fun e hmem => (hold.below e hmem).trans_le hle,
      fun hp => (hold.pid hp).trans_le hle, hold.current, hold.joined, hold.later⟩

theorem setsShared_ipc : SetsShared "ipc" fun ns sb => { sb with sharedIpcns := ns } where
  pidNs _ _ := rfl
  offered _ _ := rfl
  kept ns sb := by
    rw [CLONE_FLAG_TABLE, List.forall_mem_cons, List.forall_mem_singleton]
    exact ⟨fun h => absurd rfl h, fun _ => rfl⟩

theorem setsShared_uts : SetsShared "uts" fun ns sb => { sb with sharedUtsns := ns } where
  pidNs _ _ := rfl
  offered _ _ := rfl
  kept ns sb := by
    rw [CLONE_FLAG_TABLE, List.forall_mem_cons, List.forall_mem_singleton]
    exact ⟨fun _ => rfl, fun h => absurd rfl h⟩

theorem PodState.Sound.setupSharedNamespaces (hs : s.Sound) (ipc uts : PersistentGuest) :
    (setupSharedNamespaces ipc uts { s with setups := s.setups + 1 }).2.Sound := by
  have hopen : PodState.Opening { s with setups := s.setups + 1 } := fun c hc =>
    Nat.lt_succ_of_le (hs.holds c hc).setups
  have hstart : PodState.Sound { s with setups := s.setups + 1 } := by
    refine ⟨hs.pidNs, hs.made, hs.mounted, hs.offered, fun c hc => ?_, hs.shared⟩
    have hold := hs.holds c hc
    exact ⟨hold.setups.trans (Nat.le_succ _), hold.below, hold.pid,
      fun h => absurd h (hopen c hc).ne, fun h => absurd h (hopen c hc).ne, hold.later⟩
  have hipc : (("ipc", .newIpc) : String × CloneFlag) ∈ CLONE_FLAG_TABLE := List.mem_cons_self
  have huts : (("uts", .newUts) : String × CloneFlag) ∈ CLONE_FLAG_TABLE :=
    List.mem_cons_of_mem _ List.mem_cons_self
  have hall : Act.Preserves (fun t : PodState => t.Sound ∧ t.Opening)
      (KataAgent.setupSharedNamespaces ipc uts) := by
    apply Act.Preserves.bind
    · exact fun t ht => ht.1.setupSharedNs ht.2 hipc setsShared_ipc _
    · intro _
      apply Act.Preserves.bind
      · exact fun t ht => ht.1.setupSharedNs ht.2 huts setsShared_uts _
      · exact fun _ => Act.Preserves.pure true
  exact (hall _ ⟨hstart, hopen⟩).1

/-- A kind whose entries all have one path is in the namespace there, or in a new one. -/
theorem containerMember_uniform {ι : Type} {g : NamespaceKernel ι} {ng : NamespaceGuest}
    {a : StartArgs} {t : NamespaceSets} {place : String → CloneFlag → ι}
    {nses : List LinuxNamespace} {k : CloneFlag} {path : String} {m : Member CloneFlag ι}
    (hrun : nses.forM (addNamespace ng) .empty = (.ok (), t)) (ha : a.Takes t)
    (hg : g.Opens place t) (hex : ∃ ns ∈ nses, ns.flag = k)
    (hall : ∀ ns ∈ nses, ns.flag = k → ns.path = path) :
    (containerMember g a m).own k = if path = "" then g.fresh k else place path k := by
  obtain ⟨ns, hns, hk⟩ := hex
  rw [containerMember_collected hrun ha hg]
  by_cases hp : path = ""
  · have hnew : listedNew g nses k = some (g.fresh k) :=
      if_pos ⟨ns, hns, (hall ns hns hk).trans hp, hk⟩
    have hpath : listedPath place nses k = none := by
      apply lastWrite_eq_none_iff.2
      intro ns' hns'
      by_cases hk' : ns'.flag = k
      · rw [if_pos hk', LinuxNamespace.place, if_pos ((hall ns' hns' hk').trans hp)]
      · exact if_neg hk'
    rw [hnew, hpath, if_pos hp, Option.none_or, Option.or_none, ite_self, Option.getD_some]
  · have hnew : listedNew g nses k = none := by
      apply if_neg
      rintro ⟨ns', hns', hp', hk'⟩
      exact hp ((hall ns' hns' hk').symm.trans hp')
    have hplace {ns' : LinuxNamespace} (hns' : ns' ∈ nses) (hk' : ns'.flag = k) :
        ns'.place place = some (place path k) := by
      rw [LinuxNamespace.place, hall ns' hns' hk', if_neg hp, hk']
    have hwrites : (if ns.flag = k then ns.place place else none) ≠ none := by
      rw [if_pos hk, hplace hns hk]
      exact Option.some_ne_none _
    have hpath : listedPath place nses k = some (place path k) := by
      apply lastWrite_const ⟨ns, hns, hwrites⟩
      intro ns' hns' b hb
      obtain ⟨hk', hb⟩ := Option.ite_none_right_eq_some.1 hb
      rw [hplace hns' hk'] at hb
      exact (Option.some.inj hb).symm
    rw [hnew, hpath, if_neg hp, Option.none_or, Option.or_none, ite_self, Option.getD_some]

theorem takes_args (t : NamespaceSets) (a : StartArgs) : (t.args a).Takes t := ⟨rfl, rfl, rfl, rfl⟩

/-- Different descriptors lead to the files that were opened under them. -/
theorem lookup_zip {κ β : Type} [BEq κ] [LawfulBEq κ] {l : List κ} {m : List β} (h : l.Nodup)
    (hlen : l.length = m.length) : List.Forall₂ (fun a b => (l.zip m).lookup a = some b) l m := by
  induction l generalizing m with
  | nil =>
    rw [List.eq_nil_of_length_eq_zero hlen.symm]
    exact .nil
  | cons a l ih =>
    obtain ⟨b, m, rfl⟩ := List.exists_cons_of_length_eq_add_one hlen.symm
    obtain ⟨ha, hnodup⟩ := List.nodup_cons.1 h
    have hne : ∀ x ∈ l, x ≠ a := fun x hx he => ha (he ▸ hx)
    have hall := (List.forall₂_and_left l m).2 ⟨hne, ih hnodup (Nat.succ.inj hlen)⟩
    rw [List.zip_cons_cons]
    refine .cons List.lookup_cons_self (hall.imp fun x y ⟨hx, hxy⟩ => ?_)
    rw [List.lookup_cons, beq_false_of_ne hx]
    exact hxy

theorem kernel_opens (table : NamespaceTable) (elsewhere : String → CloneFlag → Nat)
    {nses : List LinuxNamespace} {t : NamespaceSets} (h : Collected nses t)
    (hfds : (t.toJoin.map Prod.snd).Nodup) :
    (table.kernel elsewhere t).Opens (table.place elsewhere) t := by
  have hlen : (t.toJoin.map Prod.snd).length = t.opened.length := by
    have hjoined := congrArg List.length h.joined
    rw [List.length_map, List.length_map] at hjoined
    rw [List.length_map, h.files, List.length_map, hjoined]
  have hall := List.forall₂_map_left_iff.1 (lookup_zip hfds hlen)
  apply hall.imp
  intro p path hp
  simp only [NamespaceTable.kernel, hp, Option.map_some]

theorem create_cases (h : s.create r = some s') : s' = s ∨
    ∃ spec t, updateContainerNamespaces s.sandbox r.spec = .ok spec ∧
      spec.namespaces.forM (addNamespace r.guest) .empty = (.ok (), t) ∧
      (t.toJoin.map Prod.snd).Nodup ∧ s' = { s with
        table := { s.table with made := s.table.made + 1 }
        containers := s.containers ++ [s.container r t] } := by
  rw [PodState.create] at h
  split at h
  · rename_i spec hspec
    split at h
    · rename_i t hrun
      split at h
      · cases h
      · rename_i hfds
        split at h
        · cases h
          exact .inr ⟨spec, t, hspec, hrun, not_not.1 hfds, rfl⟩
        · cases h
          exact .inl rfl
    · cases h
      exact .inl rfl
  · cases h
    exact .inl rfl

theorem namespaces_updated {sb : Sandbox} {spec spec' : Spec}
    (h : updateContainerNamespaces sb spec = .ok spec') :
    spec'.namespaces = shareNamespaces sb spec.namespaces := by
  cases hl : spec.linux with
  | none =>
    rw [updateContainerNamespaces, hl] at h
    cases h
  | some linux =>
    rw [updateContainerNamespaces_eq sb hl] at h
    cases h
    rw [Spec.namespaces, Spec.namespaces, hl]

theorem lookup_cloneFlagTable : ∀ e ∈ CLONE_FLAG_TABLE, NAMESPACES.lookup e.1 = some e.2 := by
  decide

theorem shareNamespaces_shared {sb : Sandbox} {nses : List LinuxNamespace} {ns : LinuxNamespace}
    (h : ns ∈ shareNamespaces sb nses) :
    ∀ e ∈ CLONE_FLAG_TABLE, ns.type = e.1 → ns.path = sb.sharedNs e.1 := by
  rw [CLONE_FLAG_TABLE, List.forall_mem_cons, List.forall_mem_singleton]
  exact ⟨shareNamespaces_ipc h, shareNamespaces_uts h⟩

/-- The update keeps the entries of a shared type, whose path is then the sandbox's. -/
theorem exists_shareNamespaces_iff {sb : Sandbox} {nses : List LinuxNamespace} (h : type ≠ "pid") :
    (∃ ns ∈ shareNamespaces sb nses, ns.type = type) ↔ ∃ ns ∈ nses, ns.type = type := by
  obtain ⟨added, htypes, hadded⟩ := shareNamespaces_types sb nses
  have hmem : type ∈ (shareNamespaces sb nses).map LinuxNamespace.type ↔
      type ∈ nses.map LinuxNamespace.type := by
    rw [htypes, List.mem_append, or_iff_left_iff_imp]
    exact fun hm => absurd (hadded type hm) h
  rw [← List.mem_map, hmem, List.mem_map]

theorem container_own (s : PodState) (r : PodRequest) (t : NamespaceSets) (k : CloneFlag) :
    (s.container r t).own k = (containerMember (s.table.kernel r.elsewhere t) (t.args r.args)
      ⟨fun _ => 0, fun _ => 0⟩).own k := rfl

/-- What a new container has of a kind that the sandbox shares. -/
structure PodState.Joins (s : PodState) (c : PodContainer) (e : String × CloneFlag) : Prop where
  agent : ¬ c.Lists e.1 → c.own e.2 = 0
  fresh : c.Lists e.1 → s.sandbox.sharedNs e.1 = "" → c.own e.2 = s.table.made
  joined : c.Lists e.1 → s.sandbox.sharedNs e.1 ≠ "" →
    s.table.mounted.lookup (persistentPath e.1) = some (c.own e.2)

theorem PodState.Sound.joins {spec : Spec} {t : NamespaceSets} {e : String × CloneFlag}
    (hs : s.Sound) (hspec : updateContainerNamespaces s.sandbox r.spec = .ok spec)
    (hrun : spec.namespaces.forM (addNamespace r.guest) .empty = (.ok (), t))
    (hfds : (t.toJoin.map Prod.snd).Nodup) (he : e ∈ CLONE_FLAG_TABLE) :
    s.Joins (s.container r t) e := by
  obtain ⟨hknown, hall, -⟩ := forM_addNamespace_ok .empty hrun
  rw [List.nil_append] at hall
  have hg := kernel_opens s.table r.elsewhere hall hfds
  have hlookup := lookup_cloneFlagTable e he
  have hflag {ns : LinuxNamespace} (hns : ns ∈ spec.namespaces) :
      ns.flag = e.2 ↔ ns.type = e.1 := by
    have hlisted : LinuxNamespace.flag ⟨e.1, ""⟩ = e.2 := by
      rw [LinuxNamespace.flag, hlookup, Option.getD_some]
    have hk : LinuxNamespace.Known ⟨e.1, ""⟩ := by
      rw [LinuxNamespace.Known, hlookup]
      rfl
    constructor
    · intro h
      exact type_eq_of_flag (hknown ns hns) hk (h.trans hlisted.symm)
    · intro h
      rw [LinuxNamespace.flag, h, hlookup, Option.getD_some]
  have hpid : e.1 ≠ "pid" := by
    intro h
    have hnone : ∀ e ∈ CLONE_FLAG_TABLE, e.1 ≠ "pid" := by decide
    exact hnone e he h
  have hlists : (∃ ns ∈ spec.namespaces, ns.type = e.1) ↔ (s.container r t).Lists e.1 := by
    rw [namespaces_updated hspec]
    exact exists_shareNamespaces_iff hpid
  have huniform (hl : (s.container r t).Lists e.1) : (s.container r t).own e.2 =
      if s.sandbox.sharedNs e.1 = "" then s.table.made
        else s.table.place r.elsewhere (s.sandbox.sharedNs e.1) e.2 := by
    obtain ⟨ns, hns, htype⟩ := hlists.2 hl
    apply containerMember_uniform hrun (takes_args t r.args) hg ⟨ns, hns, (hflag hns).2 htype⟩
    intro ns' hns' hk
    rw [namespaces_updated hspec] at hns'
    exact shareNamespaces_shared hns' e he ((hflag (namespaces_updated hspec ▸ hns')).1 hk)
  constructor
  · intro hl
    have hno : ∀ ns ∈ spec.namespaces, ns.flag ≠ e.2 := fun ns hns hk =>
      hl (hlists.1 ⟨ns, hns, (hflag hns).1 hk⟩)
    rw [container_own, containerMember_collected hrun (takes_args t r.args) hg,
      listedPath_of_ne hno, listedNew_of_ne hno, Option.or_none, ite_self, Option.getD_none]
  · intro hl hp
    rw [huniform hl, if_pos hp]
  · intro hl hp
    rcases hs.offered e he with ⟨hn, -⟩ | ⟨hpath, n, hn⟩
    · exact absurd hn hp
    · rw [huniform hl, if_neg hp, hpath, NamespaceTable.place, hn, Option.getD_some]

/-- A container without a path for its pid namespace gets a new one. -/
theorem PodState.Sound.own_pid {spec : Spec} {t : NamespaceSets} (hs : s.Sound)
    (hspec : updateContainerNamespaces s.sandbox r.spec = .ok spec)
    (hrun : spec.namespaces.forM (addNamespace r.guest) .empty = (.ok (), t))
    (hfds : (t.toJoin.map Prod.snd).Nodup) (hp : (s.container r t).OwnPid) :
    (s.container r t).own .newPid = s.table.made := by
  obtain ⟨hknown, hall, -⟩ := forM_addNamespace_ok .empty hrun
  rw [List.nil_append] at hall
  have hg := kernel_opens s.table r.elsewhere hall hfds
  have hnses := namespaces_updated hspec
  obtain ⟨ns, hns, htype⟩ := exists_pid_shareNamespaces r.spec.namespaces hs.pidNs
  rw [← hnses] at hns
  have hflag : ns.flag = LinuxNamespace.flag ⟨"pid", ""⟩ := flag_eq_of_type htype
  have hex : ∃ ns ∈ spec.namespaces, ns.flag = .newPid := ⟨ns, hns, hflag⟩
  have hpath : ∀ ns ∈ spec.namespaces, ns.flag = .newPid → ns.path = "" := by
    intro ns hns hk
    have hkpid : LinuxNamespace.Known ⟨"pid", ""⟩ := rfl
    have hpid := type_eq_of_flag (hknown ns hns) hkpid hk
    rw [hnses] at hns
    exact shareNamespaces_pid hp hns hpid
  have hown := containerMember_uniform (m := ⟨fun _ => 0, fun _ => 0⟩) hrun (takes_args t r.args) hg
    hex hpath
  rwa [if_pos rfl] at hown

/-- A container that a request adds to the state. -/
structure PodState.Adds (s : PodState) (c : PodContainer) : Prop where
  sandbox : c.sandbox = s.sandbox
  setups : c.setups = s.setups
  joins : ∀ e ∈ CLONE_FLAG_TABLE, s.Joins c e
  pid : c.OwnPid → c.own .newPid = s.table.made

def PodState.add (s : PodState) (c : PodContainer) : PodState :=
  { s with table := { s.table with made := s.table.made + 1 }, containers := s.containers ++ [c] }

theorem PodState.Adds.sharedNs (ha : s.Adds c) (type : String) :
    c.sandbox.sharedNs type = s.sandbox.sharedNs type := by
  rw [ha.sandbox]

theorem PodState.Joins.cases {e : String × CloneFlag} (hj : s.Joins c e) :
    (¬ c.Lists e.1 ∧ c.own e.2 = 0) ∨ (c.Lists e.1 ∧ c.own e.2 = s.table.made) ∨
      (c.Lists e.1 ∧ s.table.mounted.lookup (persistentPath e.1) = some (c.own e.2)) := by
  by_cases hl : c.Lists e.1
  · by_cases hp : s.sandbox.sharedNs e.1 = ""
    · exact .inr (.inl ⟨hl, hj.fresh hl hp⟩)
    · exact .inr (.inr ⟨hl, hj.joined hl hp⟩)
  · exact .inl ⟨hl, hj.agent hl⟩

theorem PodState.Sound.lookup_lt {e : String × CloneFlag} {n : Nat} (hs : s.Sound)
    (h : s.table.mounted.lookup (persistentPath e.1) = some n) : 0 < n ∧ n < s.table.made :=
  hs.mounted _ (Table.mem_of_lookup h)

/-- The namespace of an earlier container of the same set up is the one that the path still has. -/
theorem PodState.Sound.own_eq {e : String × CloneFlag} (hs : s.Sound) (ha : s.Adds c)
    (he : e ∈ CLONE_FLAG_TABLE) {c' : PodContainer} (hc' : c' ∈ s.containers)
    (hsetups : c'.setups = c.setups) (hl' : c'.Lists e.1) (hl : c.Lists e.1)
    (hp : c.sandbox.sharedNs e.1 ≠ "") : c'.own e.2 = c.own e.2 := by
  have hold := hs.holds c' hc'
  have hcur : c'.setups = s.setups := hsetups.trans ha.setups
  rw [ha.sharedNs] at hp
  have hp' : c'.sandbox.sharedNs e.1 ≠ "" := by rwa [hold.current hcur e he]
  have hlookup := hold.joined hcur e he hl' hp'
  rw [(ha.joins e he).joined hl hp] at hlookup
  exact (Option.some.inj hlookup).symm

/-- No later container gets the namespace that an earlier one has for itself. -/
theorem PodState.Sound.own_ne {e : String × CloneFlag} (hs : s.Sound) (ha : s.Adds c)
    (he : e ∈ CLONE_FLAG_TABLE) {c' : PodContainer} (hc' : c' ∈ s.containers)
    (hl' : c'.Lists e.1) (hl : c.Lists e.1) (hp : c'.sandbox.sharedNs e.1 = "") :
    c'.own e.2 ≠ c.own e.2 := by
  have hold := hs.holds c' hc'
  rcases (ha.joins e he).cases with ⟨hno, -⟩ | ⟨-, hown⟩ | ⟨-, hown⟩
  · exact absurd hl hno
  · rw [hown]
    exact (hold.below e he).ne
  · exact (hold.later e he hl' hp _ hown).ne

theorem PodState.Holds.add {c' : PodContainer} (hold : s.Holds c') : (s.add c).Holds c' where
  setups := hold.setups
  below := fun e he => (hold.below e he).trans (Nat.lt_succ_self _)
  pid := fun hp => (hold.pid hp).trans (Nat.lt_succ_self _)
  current := hold.current
  joined := hold.joined
  later := hold.later

theorem PodState.Sound.holds_add (hs : s.Sound) (ha : s.Adds c) : (s.add c).Holds c := by
  constructor
  case setups => exact ha.setups.le
  case below =>
    intro e he
    rcases (ha.joins e he).cases with ⟨-, hown⟩ | ⟨-, hown⟩ | ⟨-, hown⟩
    · rw [hown]
      exact Nat.succ_pos _
    · rw [hown]
      exact Nat.lt_succ_self _
    · exact (hs.lookup_lt hown).2.trans (Nat.lt_succ_self _)
  case pid =>
    intro hp
    rw [ha.pid hp]
    exact Nat.lt_succ_self _
  case current => exact fun _ e _ => ha.sharedNs e.1
  case joined => exact fun _ e he hl hp => (ha.joins e he).joined hl (ha.sharedNs e.1 ▸ hp)
  case later =>
    intro e he _ hp n hlookup
    rw [ha.sharedNs] at hp
    rcases hs.offered e he with ⟨-, hnone⟩ | ⟨hpath, -⟩
    · exact absurd (hnone.symm.trans hlookup) nofun
    · have hne : ∀ e ∈ CLONE_FLAG_TABLE, persistentPath e.1 ≠ "" := by decide
      exact absurd (hpath.symm.trans hp) (hne e he)

theorem PodState.Sound.sharedAmong_add (hs : s.Sound) (ha : s.Adds c) :
    SharedAmong (s.containers ++ [c]) := by
  constructor
  case agent =>
    intro e he
    rw [List.forall_mem_append, List.forall_mem_singleton]
    apply And.intro (hs.shared.agent e he)
    rcases (ha.joins e he).cases with ⟨hno, hown⟩ | ⟨hl, hown⟩ | ⟨hl, hown⟩
    · exact iff_of_true hown hno
    · exact iff_of_false (hown ▸ hs.made.ne') (not_not.2 hl)
    · exact iff_of_false (hs.lookup_lt hown).1.ne' (not_not.2 hl)
  case together =>
    intro e he c₁ h₁ c₂ h₂ hse hl₁ hl₂ hp
    rcases List.mem_append.1 h₁ with h₁ | h₁
    · rcases List.mem_append.1 h₂ with h₂ | h₂
      · exact hs.shared.together e he c₁ h₁ c₂ h₂ hse hl₁ hl₂ hp
      · cases List.mem_singleton.1 h₂
        have hcur : c₁.setups = s.setups := hse.trans ha.setups
        rw [(hs.holds c₁ h₁).current hcur e he, ← ha.sharedNs] at hp
        exact hs.own_eq ha he h₁ hse hl₁ hl₂ hp
    · cases List.mem_singleton.1 h₁
      rcases List.mem_append.1 h₂ with h₂ | h₂
      · exact (hs.own_eq ha he h₂ hse.symm hl₂ hl₁ hp).symm
      · cases List.mem_singleton.1 h₂
        rfl
  case apart =>
    intro e he
    apply List.pairwise_append.2
    refine ⟨hs.shared.apart e he, List.pairwise_singleton _ _, fun c' hc' c₂ h₂ hl' hl hp => ?_⟩
    cases List.mem_singleton.1 h₂
    exact hs.own_ne ha he hc' hl' hl hp
  case pid =>
    rw [List.forall_mem_append, List.forall_mem_singleton]
    apply And.intro hs.shared.pid
    intro hp
    rw [ha.pid hp]
    exact hs.made.ne'
  case pids =>
    apply List.pairwise_append.2
    refine ⟨hs.shared.pids, List.pairwise_singleton _ _, fun c' hc' c₂ h₂ hp' hp => ?_⟩
    cases List.mem_singleton.1 h₂
    rw [ha.pid hp]
    exact ((hs.holds c' hc').pid hp').ne

/-- A container that is added keeps the order of the namespaces. -/
theorem PodState.Sound.add (hs : s.Sound) (ha : s.Adds c) : (s.add c).Sound where
  pidNs := hs.pidNs
  made := Nat.succ_pos _
  mounted := fun p hp => ⟨(hs.mounted p hp).1, (hs.mounted p hp).2.trans (Nat.lt_succ_self _)⟩
  offered := hs.offered
  holds := by
    intro c' hc'
    rcases List.mem_append.1 hc' with hc' | hc'
    · exact (hs.holds c' hc').add
    · cases List.mem_singleton.1 hc'
      exact hs.holds_add ha
  shared := hs.sharedAmong_add ha

theorem PodState.Sound.create (hs : s.Sound) (h : s.create r = some s') : s'.Sound := by
  rcases create_cases h with rfl | ⟨spec, t, hspec, hrun, hfds, rfl⟩
  · exact hs
  · exact hs.add ⟨rfl, rfl, fun e he => hs.joins hspec hrun hfds he, hs.own_pid hspec hrun hfds⟩

theorem PodState.Sound.start (hi : podSystem.init s) : s.Sound := by
  obtain ⟨ht, hc, hipc, huts, hpid⟩ := hi
  have hoffered : ∀ e ∈ CLONE_FLAG_TABLE, s.sandbox.sharedNs e.1 = "" := by
    rw [CLONE_FLAG_TABLE, List.forall_mem_cons, List.forall_mem_singleton]
    exact ⟨hipc, huts⟩
  refine ⟨hpid, by rw [ht]; exact Nat.one_pos, by rw [ht]; exact nofun,
    fun e he => .inl ⟨hoffered e he, by rw [ht]; rfl⟩, by rw [hc]; exact nofun, ?_⟩
  rw [hc]
  exact ⟨fun _ _ => nofun, fun _ _ => nofun, fun _ _ => .nil, nofun, .nil⟩

theorem podSystem_sound (h : podSystem.Reachable s) : s.Sound := by
  apply h.invariant
  · exact fun s => PodState.Sound.start
  · intro s x t hs _ hstep
    cases x with
    | createSandbox ipc uts =>
      cases hstep
      exact hs.setupSharedNamespaces ipc uts
    | createContainer r => exact hs.create hstep

end

/-- Every run of requests keeps the containers of a pod together, whatever fails in between. -/
theorem containers_sharedAmong {s : PodState} (h : podSystem.Reachable s) :
    SharedAmong s.containers :=
  (podSystem_sound h).shared

def podRequest : PodRequest where
  spec := ⟨none, none, "pod", none,
    some ⟨[], [], [], none, [⟨"ipc", ""⟩, ⟨"uts", ""⟩, ⟨"mount", ""⟩], []⟩⟩
  guest := ⟨.ok, 1, fun opened _ => .ok (10 + opened.length)⟩
  args := podStart
  elsewhere := fun _ _ => 0
  succeeds := true

def readyGuest : PersistentGuest := ⟨.ok (), .ok (), 1, 5, .ok (), .ok (), .ok ()⟩

def podActions : List PodAction :=
  [.createSandbox readyGuest readyGuest, .createContainer podRequest, .createContainer podRequest,
    .createSandbox readyGuest { readyGuest with unshare := .error "EPERM" }]

/-- Two containers between a set up and the failure of the next one. -/
theorem containers_sharedAmong_pod : ∃ s,
    podSystem.run ⟨⟨∅, ∅, ∅, "", "", false, false⟩, ⟨[], 1⟩, 0, []⟩ podActions = some s ∧
    s.containers.map (fun c => (c.own .newIpc, c.own .newUts, c.own .newPid)) =
      [(1, 2, 3), (1, 2, 4)] ∧ SharedAmong s.containers := by
  obtain ⟨s, hrun, hown⟩ : ∃ s,
      podSystem.run ⟨⟨∅, ∅, ∅, "", "", false, false⟩, ⟨[], 1⟩, 0, []⟩ podActions = some s ∧
      s.containers.map (fun c => (c.own .newIpc, c.own .newUts, c.own .newPid)) =
        [(1, 2, 3), (1, 2, 4)] := ⟨_, rfl, rfl⟩
  have hreach := System.reachable_of_run (by exact ⟨rfl, rfl, rfl, rfl, rfl⟩) hrun
  exact ⟨s, hrun, hown, containers_sharedAmong hreach⟩

end KataAgent
