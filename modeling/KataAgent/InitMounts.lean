import KataAgent.CgroupList
import KataAgent.Sandbox

namespace KataAgent
open Fallible
set_option autoImplicit true

def PROCCGROUPS : String := "/proc/cgroups"

def INIT_ROOTFS_MOUNTS : List InitMount :=
  [⟨"proc".toList, "proc".toList, "/proc".toList, ["nosuid".toList, "nodev".toList,
      "noexec".toList]⟩,
    ⟨"sysfs".toList, "sysfs".toList, "/sys".toList, ["nosuid".toList, "nodev".toList,
      "noexec".toList]⟩,
    ⟨"devtmpfs".toList, "dev".toList, "/dev".toList, ["nosuid".toList]⟩,
    ⟨"tmpfs".toList, "tmpfs".toList, "/dev/shm".toList, ["nosuid".toList, "nodev".toList]⟩,
    ⟨"devpts".toList, "devpts".toList, "/dev/pts".toList, ["nosuid".toList, "noexec".toList]⟩,
    ⟨"tmpfs".toList, "tmpfs".toList, "/run".toList, ["nosuid".toList, "nodev".toList]⟩]

def useHierarchy : String := "/sys/fs/cgroup/memory//memory.use_hierarchy"

/-- What the init process has done to the guest. -/
structure InitState where
  /-- What is mounted, the last mount first. -/
  mounts : List BareMount
  /-- The target of `/dev/ptmx`. -/
  ptmx : Option String
  sessionLeader : Bool
  searchPath : Option String

/-- The guest's answers to the init process, which depend on what is mounted; a failing call
leaves the text of its error. -/
structure InitGuest where
  openFile : LineReader
  createDirAll : List BareMount → Chars → Option String
  mount : List BareMount → BareMount → Option String
  write : List BareMount → String → String → Option String
  removePtmx : Option String
  linkPtmx : Option String
  setsid : Option Errno

def InitState.attach (s : InitState) (b : BareMount) : InitState :=
  if addsMount b.flags then { s with mounts := b :: s.mounts } else s

def InitMount.bareMount (m : InitMount) : BareMount where
  source := String.ofList m.src
  destination := String.ofList m.dest
  fsType := String.ofList m.fstype
  flags := (parseMountFlagsAndOptions (m.options.map String.ofList)).1
  options := (parseMountFlagsAndOptions (m.options.map String.ofList)).2

def ioFault (fault : Option String) : Outcome ErrorKind Unit := .ofFault (fault.map .io)

/-- `BareMount::mount`. -/
def InitGuest.perform (g : InitGuest) (b : BareMount) : Act InitState ErrorKind Unit := do
  Act.lift b.check
  let mounts ← Act.read InitState.mounts
  Act.lift (.ofFault ((g.mount mounts b).map b.failure))
  Act.modify (InitState.attach · b)

def InitGuest.mountToRootfs (g : InitGuest) (m : InitMount) : Act InitState ErrorKind Unit := do
  let mounts ← Act.read InitState.mounts
  Act.lift (.ofFault
    ((g.createDirAll mounts m.dest).map fun _ => .msg "could not create directory"))
  if m.src ≠ "dev".toList then g.perform m.bareMount else Act.discard (g.perform m.bareMount)

def InitGuest.generalMount (g : InitGuest) : Act InitState ErrorKind Unit :=
  INIT_ROOTFS_MOUNTS.forM g.mountToRootfs

def InitGuest.onlineDevice (g : InitGuest) (path : String) : Act InitState ErrorKind Unit := do
  let mounts ← Act.read InitState.mounts
  Act.lift (ioFault (g.write mounts path "1"))

def InitGuest.cgroupsMount (g : InitGuest) : Act InitState ErrorKind Unit := do
  let cgroups ← Act.lift (getCgroupMounts g.openFile PROCCGROUPS)
  cgroups.forM g.mountToRootfs
  g.onlineDevice useHierarchy

def InitGuest.initAgentAsInit (g : InitGuest) : Act InitState ErrorKind Unit := do
  g.generalMount
  g.cgroupsMount
  Act.lift (ioFault g.removePtmx)
  Act.lift (ioFault g.linkPtmx)
  Act.modify fun s => { s with ptmx := some "/dev/pts/ptmx" }
  Act.lift (syscall g.setsid)
  Act.modify fun s =>
    { s with sessionLeader := true, searchPath := some "/bin:/sbin/:/usr/bin/:/usr/sbin/" }

/-- The path is the mount point, or below it. -/
def BareMount.Covers (b : BareMount) (path : Chars) : Prop :=
  b.destination = "/" ∨ b.destination.toList = path ∨ b.destination.toList ++ ['/'] <+: path

instance (b : BareMount) (path : Chars) : Decidable (b.Covers path) :=
  inferInstanceAs (Decidable (_ ∨ _ ∨ _))

def memoryCgroup : Chars := (controllerMount "memory".toList).dest

/-- The hierarchy of the memory controller, at its path. -/
def BareMount.IsMemory (b : BareMount) : Prop :=
  b.destination.toList = memoryCgroup ∧ b.fsType = "cgroup" ∧
    "memory".toList ∈ b.options.toList.splitOn ','

instance (b : BareMount) : Decidable b.IsMemory := inferInstanceAs (Decidable (_ ∧ _ ∧ _))

/-- What is seen at the path of the memory controller is its hierarchy: the last mount on the
way there hides the ones before it. -/
def MemoryMounted (mounts : List BareMount) : Prop :=
  match mounts.find? (·.Covers memoryCgroup) with
  | some b => b.IsMemory
  | none => False

instance (mounts : List BareMount) : Decidable (MemoryMounted mounts) :=
  match h : mounts.find? (·.Covers memoryCgroup) with
  | some b => decidable_of_iff b.IsMemory (by rw [MemoryMounted, h])
  | none => .isFalse (by rw [MemoryMounted, h]; exact not_false)

/-- The file of the hierarchical account is in the root of the memory hierarchy only, and takes
the write there. -/
def MemoryAccounting (g : InitGuest) : Prop :=
  ∀ mounts, g.write mounts useHierarchy "1" = none ↔ MemoryMounted mounts

/-- The mounts that are listed can be performed one after the other. -/
def Performs (g : InitGuest) (s : InitState) : Prop :=
  ∀ mounts, getCgroupMounts g.openFile PROCCGROUPS = .ok mounts →
    (mounts.forM g.mountToRootfs s).1 = .ok ()

/-- The memory controller is among the mounts that the lines lead to. -/
def MemoryListed (ls : List Chars) : Prop :=
  DevicesEnabled ls ∧ ∃ l ∈ ls, ValidLine l ∧ controller l = "memory".toList

section
variable {g : InitGuest} {s t : InitState} {b : BareMount} {m : InitMount} {ls : List Chars}
  {mounts : List BareMount}

theorem memoryMounted_cons :
    MemoryMounted (b :: mounts) ↔ if b.Covers memoryCgroup then b.IsMemory else
      MemoryMounted mounts := by
  rw [MemoryMounted]
  by_cases hc : b.Covers memoryCgroup
  · have hf : (b :: mounts).find? (·.Covers memoryCgroup) = some b :=
      List.find?_cons_of_pos (decide_eq_true hc)
    rw [hf, if_pos hc]
  · have hf : (b :: mounts).find? (·.Covers memoryCgroup) =
        mounts.find? (·.Covers memoryCgroup) := List.find?_cons_of_neg (by simpa using hc)
    rw [hf, if_neg hc, MemoryMounted]

theorem attach_mounts : (s.attach b).mounts =
    if addsMount b.flags then b :: s.mounts else s.mounts := by
  rw [InitState.attach]
  split
  · rfl
  · rfl

theorem memoryMounted_attach (h : addsMount b.flags ∧ b.Covers memoryCgroup) :
    MemoryMounted (s.attach b).mounts ↔ b.IsMemory := by
  rw [attach_mounts, if_pos h.1, memoryMounted_cons, if_pos h.2]

theorem memoryMounted_attach_of_not (h : ¬ (addsMount b.flags ∧ b.Covers memoryCgroup)) :
    MemoryMounted (s.attach b).mounts ↔ MemoryMounted s.mounts := by
  rw [attach_mounts]
  by_cases ha : addsMount b.flags
  · rw [if_pos ha, memoryMounted_cons, if_neg fun hc => h ⟨ha, hc⟩]
  · rw [if_neg ha]

theorem perform_eq_ok : g.perform b s = (.ok (), t) ↔
    b.check = .ok () ∧ g.mount s.mounts b = none ∧ t = s.attach b := by
  rw [InitGuest.perform, Act.bind_unit_eq_ok (u := s) (P := b.check = .ok ())]
  · apply and_congr_right
    intro
    rw [Act.bind_ok (Act.read_apply _), Act.bind_unit_eq_ok (u := s)
      (P := g.mount s.mounts b = none)]
    · apply and_congr_right
      intro
      rw [Act.modify_apply, Prod.mk.injEq, and_iff_right rfl, eq_comm]
    · intro v
      rw [Act.lift_apply, Prod.mk.injEq, Outcome.ofFault_eq_ok, Option.map_eq_none_iff,
        eq_comm (a := s)]
  · intro v
    rw [Act.lift_apply, Prod.mk.injEq, eq_comm (a := s)]

theorem perform_snd (g : InitGuest) (b : BareMount) (s : InitState) :
    (g.perform b s).2 = s ∨ (g.perform b s).2 = s.attach b := by
  rcases hp : g.perform b s with ⟨o, t⟩
  rw [InitGuest.perform] at hp
  rcases Act.bind_cases hp with ⟨-, ht⟩ | ⟨u, v, hcheck, hp⟩
  · exact .inl ht.symm
  rw [Act.lift_apply, Prod.mk.injEq] at hcheck
  rw [Act.bind_ok (Act.read_apply _), ← hcheck.2] at hp
  rcases Act.bind_cases hp with ⟨-, ht⟩ | ⟨u, v, hmount, hp⟩
  · exact .inl ht.symm
  rw [Act.lift_apply, Prod.mk.injEq] at hmount
  rw [Act.modify_apply, Prod.mk.injEq, ← hmount.2] at hp
  exact .inr hp.2.symm

theorem discard_snd {x : Act InitState ErrorKind Unit} : (x.discard s).2 = (x s).2 := by
  rw [Act.discard]
  rcases x s with ⟨o, t⟩
  cases o with
  | ok a => rfl
  | err e => rfl
  | panic => rfl

/-- A mount that is performed is attached, up to the one of the devices' file system. -/
theorem mountToRootfs_ok (h : g.mountToRootfs m s = (.ok (), t)) :
    t = s.attach m.bareMount ∨ m.src = "dev".toList ∧ t = s := by
  rw [InitGuest.mountToRootfs] at h
  obtain ⟨ms, u, hread, h⟩ := Act.bind_eq_ok.1 h
  cases hread
  obtain ⟨v, u, hdir, h⟩ := Act.bind_eq_ok.1 h
  rw [Act.lift_apply, Prod.mk.injEq] at hdir
  rw [← hdir.2] at h
  by_cases hm : m.src = "dev".toList
  · rw [if_neg (not_not_intro hm)] at h
    have ht : t = (g.perform m.bareMount s).2 := by rw [← discard_snd, h]
    rcases perform_snd g m.bareMount s with hs | hs
    · exact .inr ⟨hm, ht.trans hs⟩
    · exact .inl (ht.trans hs)
  · rw [if_pos hm] at h
    exact .inl (perform_eq_ok.1 h).2.2

theorem bareMount_covers {path : Chars} : m.bareMount.Covers path ↔
    m.dest = ['/'] ∨ m.dest = path ∨ m.dest ++ ['/'] <+: path := by
  have hroot : String.ofList m.dest = "/" ↔ m.dest = ['/'] := @String.ofList_inj m.dest ['/']
  rw [BareMount.Covers, InitMount.bareMount, String.toList_ofList, hroot]

theorem flags_concat (xs : List String) {x : String} (h : mountFlags.lookup x = none) :
    (parseMountFlagsAndOptions (xs ++ [x])).1 = (parseMountFlagsAndOptions xs).1 := by
  simp only [parseMountFlagsAndOptions, List.foldl_append, List.foldl_cons, List.foldl_nil, h]
  split
  · rfl
  · split
    · rfl
    · rfl

/-- The options that the mounts of all controllers have. -/
def plainOptions : List Chars :=
  ["nosuid".toList, "nodev".toList, "noexec".toList, "relatime".toList]

theorem lookup_controller : ∀ key ∈ CGROUPS.map Prod.fst,
    mountFlags.lookup (String.ofList key) = none := by
  decide

theorem addsMount_controller {key : Chars} (h : key ∈ CGROUPS.map Prod.fst) :
    addsMount (controllerMount key).bareMount.flags := by
  have hplain : addsMount (parseMountFlagsAndOptions (plainOptions.map String.ofList)).1 := by
    decide
  have hflags : (controllerMount key).bareMount.flags =
      (parseMountFlagsAndOptions (plainOptions.map String.ofList)).1 :=
    flags_concat (plainOptions.map String.ofList) (lookup_controller key h)
  rw [hflags]
  exact hplain

theorem covers_controllerMount {key name : Chars} (hn : '/' ∉ name) :
    (controllerMount key).bareMount.Covers (controllerMount name).dest ↔ key = name := by
  have hdest (key : Chars) : (controllerMount key).dest = CGROUPPATH ++ '/' :: key := rfl
  have hroot : CGROUPPATH ++ '/' :: key ≠ ['/'] := by
    intro hk
    have hlength := congrArg List.length hk
    have hpath : CGROUPPATH.length = 14 := by decide
    rw [List.length_append, List.length_cons, List.length_singleton] at hlength
    omega
  rw [bareMount_covers, hdest, hdest, or_iff_right hroot, List.append_cancel_left_eq,
    List.cons.injEq, and_iff_right rfl, or_iff_left]
  intro hbelow
  rw [List.append_assoc, List.prefix_append_right_inj, List.cons_append,
    List.cons_prefix_cons] at hbelow
  exact hn (hbelow.2.subset (List.mem_append_right key (List.mem_singleton_self '/')))

theorem covers_controller {key : Chars} :
    (controllerMount key).bareMount.Covers memoryCgroup ↔ key = "memory".toList :=
  covers_controllerMount (by decide)

theorem isMemory_controller : (controllerMount "memory".toList).bareMount.IsMemory := by
  decide

/-- The mounts of controllers, performed one after the other. -/
theorem memoryMounted_controllers {keys : List Chars} (hkeys : keys ⊆ CGROUPS.map Prod.fst)
    (h : (keys.map controllerMount).forM g.mountToRootfs s = (.ok (), t)) :
    MemoryMounted t.mounts ↔ "memory".toList ∈ keys ∨ MemoryMounted s.mounts := by
  induction keys generalizing s with
  | nil =>
    cases h
    exact (or_iff_right List.not_mem_nil).symm
  | cons key keys ih =>
    obtain ⟨hkey, hkeys⟩ := List.cons_subset.1 hkeys
    obtain ⟨u, v, hm, h⟩ := Act.bind_eq_ok.1 h
    have hv : v = s.attach (controllerMount key).bareMount := by
      rcases mountToRootfs_ok hm with hv | ⟨hdev, -⟩
      · exact hv
      · cases hdev
    have hadds := addsMount_controller hkey
    rw [ih hkeys h, hv, List.mem_cons, or_assoc]
    by_cases hk : key = "memory".toList
    · rw [memoryMounted_attach ⟨hadds, covers_controller.2 hk⟩, hk]
      exact iff_of_true (.inr isMemory_controller) (.inl rfl)
    · rw [memoryMounted_attach_of_not fun hc => hk (covers_controller.1 hc.2),
        or_iff_right (Ne.symm hk)]

theorem root_covers : addsMount cgroupRoot.bareMount.flags ∧
    cgroupRoot.bareMount.Covers memoryCgroup ∧ ¬ cgroupRoot.bareMount.IsMemory := by
  decide

theorem not_addsMount_readOnlyRoot : ¬ addsMount readOnlyRoot.bareMount.flags := by
  decide

theorem controllers_eq (ls : List Chars) :
    ((ls.filter fun l => MountedLine l).map fun l => controllerMount (controller l)) =
      ((ls.filter fun l => MountedLine l).map controller).map controllerMount := by
  rw [List.map_map]
  rfl

theorem memory_known : "memory".toList ∈ CGROUPS.map Prod.fst := by decide

theorem memory_mem_controllers :
    "memory".toList ∈ (ls.filter fun l => MountedLine l).map controller ↔
      ∃ l ∈ ls, ValidLine l ∧ controller l = "memory".toList := by
  constructor
  · intro h
    obtain ⟨l, hl, hc⟩ := List.mem_map.1 h
    obtain ⟨hl, hm⟩ := List.mem_filter.1 hl
    exact ⟨l, hl, (of_decide_eq_true hm).1, hc⟩
  · intro ⟨l, hl, hv, hc⟩
    have hm : MountedLine l := ⟨hv, hc ▸ memory_known⟩
    exact List.mem_map.2 ⟨l, List.mem_filter.2 ⟨hl, decide_eq_true hm⟩, hc⟩

/-- The root hides what was mounted before, and the controllers are mounted in it. -/
theorem memoryMounted_listed (h : (listedMounts ls).forM g.mountToRootfs s = (.ok (), t)) :
    MemoryMounted t.mounts ↔ ∃ l ∈ ls, ValidLine l ∧ controller l = "memory".toList := by
  rw [listedMounts, controllers_eq, Act.forM_append] at h
  obtain ⟨u, v, h, hlast⟩ := Act.bind_eq_ok.1 h
  obtain ⟨u', w, hroot, h⟩ := Act.bind_eq_ok.1 h
  obtain ⟨u, v', hlast, hnil⟩ := Act.bind_eq_ok.1 hlast
  cases hnil
  have hw : w = s.attach cgroupRoot.bareMount := by
    rcases mountToRootfs_ok hroot with hw | ⟨hdev, -⟩
    · exact hw
    · cases hdev
  have ht : t = v.attach readOnlyRoot.bareMount := by
    rcases mountToRootfs_ok hlast with ht | ⟨hdev, -⟩
    · exact ht
    · cases hdev
  have hknown : (ls.filter fun l => MountedLine l).map controller ⊆ CGROUPS.map Prod.fst := by
    intro key hkey
    obtain ⟨l, hl, rfl⟩ := List.mem_map.1 hkey
    exact (of_decide_eq_true (List.mem_filter.1 hl).2).2
  obtain ⟨hadds, hcovers, hno⟩ := root_covers
  rw [ht, memoryMounted_attach_of_not (mt And.left not_addsMount_readOnlyRoot),
    memoryMounted_controllers hknown h, memory_mem_controllers, hw,
    memoryMounted_attach ⟨hadds, hcovers⟩, or_iff_left hno]

theorem onlineDevice_eq_ok (hg : MemoryAccounting g) :
    (g.onlineDevice useHierarchy s).1 = .ok () ↔ MemoryMounted s.mounts := by
  rw [InitGuest.onlineDevice, Act.bind_ok (Act.read_apply _), Act.lift_apply, ioFault,
    Outcome.ofFault_eq_ok, Option.map_eq_none_iff]
  exact hg s.mounts

/-- The memory hierarchy is seen once the mounts for the lines are performed. -/
def MemoryReached (ls : List Chars) (s : InitState) : Prop :=
  MemoryListed ls ∨ ¬ DevicesEnabled ls ∧ MemoryMounted s.mounts

theorem cgroupsMount_ok_iff (hg : MemoryAccounting g)
    (hread : g.openFile PROCCGROUPS = .ok (ls.map .ok))
    (hmounts : Performs g s) : (g.cgroupsMount s).1 = .ok () ↔ MemoryReached ls s := by
  obtain ⟨hlisted, hnone⟩ := getCgroupMounts_of_lines hread
  rw [InitGuest.cgroupsMount, MemoryReached, MemoryListed]
  by_cases hd : DevicesEnabled ls
  · have hperforms := hmounts _ (hlisted hd)
    rcases hrun : (listedMounts ls).forM g.mountToRootfs s with ⟨o, t⟩
    rw [hrun] at hperforms
    cases hperforms
    rw [Act.bind_ok (a := listedMounts ls) (t := s) (by rw [Act.lift_apply, hlisted hd]),
      Act.bind_ok hrun, onlineDevice_eq_ok hg, memoryMounted_listed hrun, and_iff_right hd,
      or_iff_left fun h => h.1 hd]
  · rw [Act.bind_ok (a := []) (t := s) (by rw [Act.lift_apply, hnone hd])]
    change (g.onlineDevice useHierarchy s).1 = .ok () ↔ _
    rw [onlineDevice_eq_ok hg, or_iff_right fun h => hd h.1, and_iff_right hd]

theorem initMounts_hide : ∀ m ∈ INIT_ROOTFS_MOUNTS, ¬ m.bareMount.IsMemory := by decide

theorem sysfs_covers : ∃ m ∈ INIT_ROOTFS_MOUNTS, m.src ≠ "dev".toList ∧
    addsMount m.bareMount.flags ∧ m.bareMount.Covers memoryCgroup := by
  decide

/-- Mounts of other file systems hide the memory hierarchy, or leave it hidden. -/
theorem not_memoryMounted_of_forM {ms : List InitMount}
    (hother : ∀ m ∈ ms, ¬ m.bareMount.IsMemory)
    (h : ms.forM g.mountToRootfs s = (.ok (), t))
    (hhides : ¬ MemoryMounted s.mounts ∨ ∃ m ∈ ms, m.src ≠ "dev".toList ∧
      addsMount m.bareMount.flags ∧ m.bareMount.Covers memoryCgroup) :
    ¬ MemoryMounted t.mounts := by
  induction ms generalizing s with
  | nil =>
    cases h
    rcases hhides with hs | ⟨m, hm, -⟩
    · exact hs
    · cases hm
  | cons m ms ih =>
    obtain ⟨hm, hother⟩ := List.forall_mem_cons.1 hother
    obtain ⟨u, v, hmount, h⟩ := Act.bind_eq_ok.1 h
    apply ih hother h
    by_cases hc : addsMount m.bareMount.flags ∧ m.bareMount.Covers memoryCgroup
    · rcases mountToRootfs_ok hmount with hv | ⟨hdev, hv⟩
      · rw [hv, memoryMounted_attach hc]
        exact .inl hm
      · rw [hv]
        apply hhides.imp_right
        intro ⟨n, hn, hsrc, hcover⟩
        rcases List.mem_cons.1 hn with rfl | hn
        · exact absurd hdev hsrc
        · exact ⟨n, hn, hsrc, hcover⟩
    · have hsame : MemoryMounted v.mounts ↔ MemoryMounted s.mounts := by
        rcases mountToRootfs_ok hmount with hv | ⟨-, hv⟩
        · rw [hv, memoryMounted_attach_of_not hc]
        · rw [hv]
      rw [hsame]
      apply hhides.imp_right
      intro ⟨n, hn, hsrc, hcover⟩
      rcases List.mem_cons.1 hn with rfl | hn
      · exact absurd hcover hc
      · exact ⟨n, hn, hsrc, hcover⟩

theorem not_memoryMounted_of_generalMount (h : g.generalMount s = (.ok (), t)) :
    ¬ MemoryMounted t.mounts :=
  not_memoryMounted_of_forM initMounts_hide h (.inr sysfs_covers)

theorem initAgentAsInit_ok_iff (hgeneral : g.generalMount s = (.ok (), t))
    (hrest : g.removePtmx = none ∧ g.linkPtmx = none ∧ g.setsid = none) :
    (g.initAgentAsInit s).1 = .ok () ↔ (g.cgroupsMount t).1 = .ok () := by
  obtain ⟨hremove, hlink, hsetsid⟩ := hrest
  rw [InitGuest.initAgentAsInit, Act.bind_ok hgeneral, hremove, hlink, hsetsid]
  rcases hc : g.cgroupsMount t with ⟨o, v⟩
  cases o with
  | ok u => exact iff_of_true (by rw [Act.bind_ok hc]; rfl) rfl
  | err e => exact iff_of_false (by rw [Act.bind_err hc]; exact nofun) nofun
  | panic => exact iff_of_false (by rw [Act.bind_panic hc]; exact nofun) nofun

end

/-- The agent sets the account up where the memory controller is mounted, and fails elsewhere,
as the init process does. -/
theorem cgroupsMount_isOk (g : InitGuest) (ls : List Chars) (s : InitState)
    (hg : MemoryAccounting g) (hread : g.openFile PROCCGROUPS = .ok (ls.map .ok)) :
    (Performs g s → ((g.cgroupsMount s).1 = .ok () ↔
      MemoryListed ls ∨ ¬ DevicesEnabled ls ∧ MemoryMounted s.mounts)) ∧
    ∀ t, g.generalMount s = (.ok (), t) → Performs g t →
      g.removePtmx = none ∧ g.linkPtmx = none ∧ g.setsid = none →
      ((g.initAgentAsInit s).1 = .ok () ↔ MemoryListed ls) := by
  constructor
  · exact cgroupsMount_ok_iff hg hread
  · intro t hgeneral hmounts hrest
    rw [initAgentAsInit_ok_iff hgeneral hrest, cgroupsMount_ok_iff hg hread hmounts, MemoryReached,
      or_iff_left fun h => not_memoryMounted_of_generalMount hgeneral h.2]

/-- A guest in which everything but the write to a file that is not there succeeds. -/
def bootGuest (cgroups : String) : InitGuest where
  openFile := fun _ => .ok ((lines cgroups).map .ok)
  createDirAll := fun _ _ => none
  mount := fun _ _ => none
  write := fun mounts _ _ =>
    if MemoryMounted mounts then none else some "No such file or directory (os error 2)"
  removePtmx := none
  linkPtmx := none
  setsid := none

def booted : InitState := ⟨[], none, false, none⟩

theorem bootGuest_accounting (cgroups : String) : MemoryAccounting (bootGuest cgroups) := by
  intro mounts
  simp [bootGuest]

def memoryControllers : String :=
  "#subsys_name\thierarchy\tnum_cgroups\tenabled\ndevices\t4\t1\t1\nmemory\t5\t1\t1\n"

theorem cgroupsMount_memoryControllers :
    ((Performs (bootGuest memoryControllers) booted →
      (((bootGuest memoryControllers).cgroupsMount booted).1 = .ok () ↔
        MemoryListed (lines memoryControllers) ∨
          ¬ DevicesEnabled (lines memoryControllers) ∧ MemoryMounted booted.mounts)) ∧
    ∀ t, (bootGuest memoryControllers).generalMount booted = (.ok (), t) →
      Performs (bootGuest memoryControllers) t →
      (bootGuest memoryControllers).removePtmx = none ∧
        (bootGuest memoryControllers).linkPtmx = none ∧
        (bootGuest memoryControllers).setsid = none →
      (((bootGuest memoryControllers).initAgentAsInit booted).1 = .ok () ↔
        MemoryListed (lines memoryControllers))) ∧
    MemoryListed (lines memoryControllers) ∧
    ((bootGuest memoryControllers).initAgentAsInit booted).1 = .ok () := by
  have h := cgroupsMount_isOk (bootGuest memoryControllers) (lines memoryControllers) booted
    (bootGuest_accounting memoryControllers) rfl
  have hlisted : MemoryListed (lines memoryControllers) :=
    ⟨⟨"devices\t4\t1\t1".toList, by decide⟩, "memory\t5\t1\t1".toList, by decide +kernel⟩
  exact ⟨h, hlisted, by decide⟩

/-- A kernel without controllers: nothing is listed, and the agent fails at the write. -/
theorem cgroupsMount_noControllers :
    getCgroupMounts (bootGuest "").openFile PROCCGROUPS = .ok [] ∧ Performs (bootGuest "") booted ∧
      ((bootGuest "").cgroupsMount booted).1 =
        .err (.io "No such file or directory (os error 2)") ∧
      ((bootGuest "").generalMount booted).1 = .ok () ∧
      ((bootGuest "").initAgentAsInit booted).1 =
        .err (.io "No such file or directory (os error 2)") := by
  have hlist : getCgroupMounts (bootGuest "").openFile PROCCGROUPS = .ok [] := by decide
  constructor
  · exact hlist
  constructor
  · intro mounts h
    cases hlist.symm.trans h
    rfl
  decide

end KataAgent
