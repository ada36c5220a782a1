import KataAgent.CgroupFiles

namespace KataAgent
open Fallible
set_option autoImplicit true

def CGROUPPATH : Chars := "/sys/fs/cgroup".toList

structure InitMount where
  fstype : Chars
  src : Chars
  dest : Chars
  options : List Chars
  deriving DecidableEq

def CGROUPS : List (Chars × Chars) :=
  [("cpu".toList, "/sys/fs/cgroup/cpu".toList),
    ("cpuacct".toList, "/sys/fs/cgroup/cpuacct".toList),
    ("blkio".toList, "/sys/fs/cgroup/blkio".toList),
    ("cpuset".toList, "/sys/fs/cgroup/cpuset".toList),
    ("memory".toList, "/sys/fs/cgroup/memory".toList),
    ("devices".toList, "/sys/fs/cgroup/devices".toList),
    ("freezer".toList, "/sys/fs/cgroup/freezer".toList),
    ("net_cls".toList, "/sys/fs/cgroup/net_cls".toList),
    ("perf_event".toList, "/sys/fs/cgroup/perf_event".toList),
    ("net_prio".toList, "/sys/fs/cgroup/net_prio".toList),
    ("hugetlb".toList, "/sys/fs/cgroup/hugetlb".toList),
    ("pids".toList, "/sys/fs/cgroup/pids".toList),
    ("rdma".toList, "/sys/fs/cgroup/rdma".toList)]

/-- The mount that the others are made in. -/
def cgroupRoot : InitMount where
  fstype := "tmpfs".toList
  src := "tmpfs".toList
  dest := CGROUPPATH
  options := ["nosuid".toList, "nodev".toList, "noexec".toList, "mode=755".toList]

def readOnlyRoot : InitMount where
  fstype := "tmpfs".toList
  src := "tmpfs".toList
  dest := CGROUPPATH
  options := ["remount".toList, "ro".toList, "nosuid".toList, "nodev".toList, "noexec".toList,
    "mode=755".toList]

/-- What `get_cgroup_mounts` has after some lines. -/
structure CgroupScan where
  hasDeviceCgroup : Bool
  cgMounts : List InitMount

/-- The body of the loop of `get_cgroup_mounts`, for a line that is read. -/
def addCgroup (s : CgroupScan) (line : Chars) : CgroupScan :=
  let fields := line.splitOn '\t'
  if (fields.headD []).head? = some '#' then s
  else
    match fields with
    | name :: hierarchy :: numCgroups :: enabled :: _ =>
      if enabled = ['0'] then s
      -- `continue 'outer`
      else if [hierarchy, numCgroups, enabled].any fun f => !(parseU64 f).isOk then s
      else
        match CGROUPS.find? fun e => e.1 = name with
        | some (key, value) =>
          if key = [] then s
          else
            { hasDeviceCgroup := if key = "devices".toList then true else s.hasDeviceCgroup
              cgMounts := s.cgMounts ++ [{
                fstype := "cgroup".toList
                src := "cgroup".toList
                dest := value
                options := ["nosuid".toList, "nodev".toList, "noexec".toList, "relatime".toList,
                  key] }] }
        | none => s
    | _ => s

/-- The end of a call into `std::io`, which may leave the text of its error. -/
def ioResult : Except String α → Outcome ErrorKind α
  | .ok a => .ok a
  | .error e => .err (.io e)

/-- Opening a file, and the lines that a `BufReader` of it then reads. -/
abbrev LineReader := String → Except String (List (Except String Chars))

def readCgroup (s : CgroupScan) (line : Except String Chars) : Outcome ErrorKind CgroupScan := do
  let line ← ioResult line
  return addCgroup s line

def getCgroupMounts (openFile : LineReader) (cgPath : String) :
    Outcome ErrorKind (List InitMount) := do
  let reader ← ioResult (openFile cgPath)
  let s ← reader.foldlM readCgroup { hasDeviceCgroup := false, cgMounts := [cgroupRoot] }
  if s.hasDeviceCgroup = false then return []
  else return s.cgMounts ++ [readOnlyRoot]

/-- The text of the field is a number of 64 bits. -/
def IsU64 (f : Chars) : Prop := ∃ n, parseU64 f = .ok n

instance (f : Chars) : Decidable (IsU64 f) := decidable_of_iff _ Outcome.isOk_iff

/-- The line has the four fields of a controller that is enabled. -/
def ValidLine (l : Chars) : Prop :=
  l.head? ≠ some '#' ∧ 4 ≤ (l.splitOn '\t').length ∧
    (∀ f ∈ ((l.splitOn '\t').drop 1).take 3, IsU64 f) ∧ (l.splitOn '\t')[3]? ≠ some ['0']

instance (l : Chars) : Decidable (ValidLine l) :=
  inferInstanceAs (Decidable (_ ∧ _ ∧ _ ∧ _))

def controller (l : Chars) : Chars := (l.splitOn '\t').headD []

/-- A valid line of a controller of the table. -/
def MountedLine (l : Chars) : Prop := ValidLine l ∧ controller l ∈ CGROUPS.map Prod.fst

instance (l : Chars) : Decidable (MountedLine l) := inferInstanceAs (Decidable (_ ∧ _))

/-- The controller's own mount below the root of the cgroups. -/
def controllerMount (key : Chars) : InitMount where
  fstype := "cgroup".toList
  src := "cgroup".toList
  dest := CGROUPPATH ++ '/' :: key
  options := ["nosuid".toList, "nodev".toList, "noexec".toList, "relatime".toList, key]

section
variable {s : CgroupScan} {l : Chars} {ls : List Chars} {openFile : LineReader} {cgPath : String}

theorem head?_controller (l : Chars) : (controller l).head? = some '#' ↔ l.head? = some '#' := by
  rw [controller]
  by_cases ht : '\t' ∈ l
  · obtain ⟨name, rest, hl, hname⟩ := List.eq_append_cons_of_mem ht
    rw [hl, List.splitOn_append_cons_self_of_not_mem hname]
    cases name with
    | nil => exact iff_of_false nofun (fun h => by cases h)
    | cons c name => rfl
  · rw [List.splitOn_eq_singleton ht]
    rfl

theorem CGROUPS_path : ∀ e ∈ CGROUPS, e.1 ≠ [] ∧ e.2 = CGROUPPATH ++ '/' :: e.1 := by
  decide

theorem find?_cgroup (key : Chars) : CGROUPS.find? (fun e => e.1 = key) =
    if key ∈ CGROUPS.map Prod.fst then some (key, CGROUPPATH ++ '/' :: key) else none := by
  split
  · rename_i h
    have hfound : (CGROUPS.find? fun e => e.1 = key).isSome := by
      obtain ⟨e, he, hkey⟩ := List.mem_map.1 h
      exact List.find?_isSome.2 ⟨e, he, decide_eq_true hkey⟩
    obtain ⟨e, he⟩ := Option.isSome_iff_exists.1 hfound
    have hkey := List.find?_some he
    rw [decide_eq_true_eq] at hkey
    obtain ⟨-, hpath⟩ := CGROUPS_path e (List.mem_of_find?_eq_some he)
    rw [he, ← hkey, ← hpath]
  · rename_i h
    rw [List.find?_eq_none]
    intro e he hkey
    exact h (of_decide_eq_true hkey ▸ List.mem_map_of_mem he)

theorem four_fields {fs : List Chars} (h : 4 ≤ fs.length) :
    ∃ name hierarchy numCgroups enabled rest,
      fs = name :: hierarchy :: numCgroups :: enabled :: rest := by
  match fs, h with
  | name :: hierarchy :: numCgroups :: enabled :: rest, _ =>
    exact ⟨name, hierarchy, numCgroups, enabled, rest, rfl⟩

theorem mountedLine_iff {name hierarchy numCgroups enabled : Chars} {rest : List Chars}
    (hl : l.splitOn '\t' = name :: hierarchy :: numCgroups :: enabled :: rest) :
    MountedLine l ↔ l.head? ≠ some '#' ∧ enabled ≠ ['0'] ∧
      (∀ f ∈ [hierarchy, numCgroups, enabled], IsU64 f) ∧ name ∈ CGROUPS.map Prod.fst := by
  rw [MountedLine, ValidLine, controller, hl]
  have hlen : 4 ≤ (name :: hierarchy :: numCgroups :: enabled :: rest).length :=
    Nat.le_add_left 4 rest.length
  have hfields : ((name :: hierarchy :: numCgroups :: enabled :: rest).drop 1).take 3 =
      [hierarchy, numCgroups, enabled] := rfl
  have henabled : (name :: hierarchy :: numCgroups :: enabled :: rest)[3]? = some enabled := rfl
  rw [hfields, henabled, and_iff_right hlen, ne_eq (some enabled), Option.some.injEq, and_assoc,
    and_assoc, and_left_comm (b := ¬ enabled = ['0'])]
  rfl

theorem any_isOk_iff {fs : List Chars} :
    (fs.any fun f => !(parseU64 f).isOk) = true ↔ ¬ ∀ f ∈ fs, IsU64 f := by
  simp only [List.any_eq_true, Bool.not_eq_true', ← Bool.not_eq_true, Outcome.isOk_iff, IsU64,
    not_forall, exists_prop]

/-- A line of the file adds the mount of its controller, or is skipped. -/
theorem addCgroup_eq : addCgroup s l =
    if MountedLine l then
      { hasDeviceCgroup := s.hasDeviceCgroup || controller l = "devices".toList
        cgMounts := s.cgMounts ++ [controllerMount (controller l)] }
    else s := by
  have hhead := head?_controller l
  rw [controller] at hhead
  rw [addCgroup]
  by_cases hc : l.head? = some '#'
  · rw [if_pos (hhead.2 hc), if_neg fun h => h.1.1 hc]
  rw [if_neg (mt hhead.1 hc)]
  split
  · rename_i name hierarchy numCgroups enabled rest hl
    have hmounted := mountedLine_iff hl
    by_cases he : enabled = ['0']
    · rw [if_pos he, if_neg fun h => (hmounted.1 h).2.1 he]
    rw [if_neg he]
    by_cases hnum : ∀ f ∈ [hierarchy, numCgroups, enabled], IsU64 f
    · rw [if_neg fun h => any_isOk_iff.1 h hnum, find?_cgroup]
      by_cases hk : name ∈ CGROUPS.map Prod.fst
      · have hname : controller l = name := by rw [controller, hl, List.headD_cons]
        obtain ⟨e, hmem, hkey⟩ := List.mem_map.1 hk
        have hne : name ≠ [] := hkey ▸ (CGROUPS_path e hmem).1
        rw [if_pos hk, if_pos (hmounted.2 ⟨hc, he, hnum, hk⟩), hname]
        dsimp only
        rw [if_neg hne, Bool.if_true_left, Bool.or_comm]
        rfl
      · rw [if_neg hk, if_neg fun h => hk (hmounted.1 h).2.2.2]
    · rw [if_pos (any_isOk_iff.2 hnum), if_neg fun h => hnum (hmounted.1 h).2.2.1]
  · rename_i hshort
    rw [if_neg]
    intro h
    obtain ⟨name, hierarchy, numCgroups, enabled, rest, hl⟩ := four_fields h.1.2.1
    exact hshort name hierarchy numCgroups enabled rest hl

/-- A valid line enables the controller of the devices. -/
def DevicesEnabled (ls : List Chars) : Prop :=
  ∃ l ∈ ls, ValidLine l ∧ controller l = "devices".toList

theorem devices_known : "devices".toList ∈ CGROUPS.map Prod.fst := by decide

theorem foldl_addCgroup (ls : List Chars) (s : CgroupScan) :
    ((ls.foldl addCgroup s).hasDeviceCgroup = true ↔
      s.hasDeviceCgroup = true ∨ DevicesEnabled ls) ∧
    (ls.foldl addCgroup s).cgMounts = s.cgMounts ++
      (ls.filter fun l => MountedLine l).map fun l => controllerMount (controller l) := by
  induction ls generalizing s with
  | nil => simp [DevicesEnabled]
  | cons l ls ih =>
    obtain ⟨hdevice, hmounts⟩ := ih (addCgroup s l)
    have hcons : DevicesEnabled (l :: ls) ↔
        (ValidLine l ∧ controller l = "devices".toList) ∨ DevicesEnabled ls := by
      rw [DevicesEnabled, List.exists_mem_cons_iff]
      rfl
    rw [List.foldl_cons, hdevice, hmounts, hcons, addCgroup_eq]
    by_cases hl : MountedLine l
    · have hfilter : (l :: ls).filter (fun l => MountedLine l) =
          l :: ls.filter fun l => MountedLine l := List.filter_cons_of_pos (decide_eq_true hl)
      rw [if_pos hl, hfilter, List.map_cons, ← List.append_cons]
      apply And.intro _ rfl
      rw [Bool.or_eq_true, decide_eq_true_eq, or_assoc, and_iff_right hl.1]
    · have hfilter : (l :: ls).filter (fun l => MountedLine l) =
          ls.filter fun l => MountedLine l := List.filter_cons_of_neg (by simpa using hl)
      rw [if_neg hl, hfilter]
      apply And.intro _ rfl
      have hno : ¬ (ValidLine l ∧ controller l = "devices".toList) :=
        fun h => hl ⟨h.1, h.2 ▸ devices_known⟩
      rw [or_iff_right hno]

/-- The lines are looked at once the ones before them could be read. -/
theorem foldlM_readCgroup (reader : List (Except String Chars)) (s : CgroupScan) :
    reader.foldlM readCgroup s = reader.mapM ioResult >>= fun ls => .ok (ls.foldl addCgroup s) := by
  induction reader generalizing s with
  | nil => rfl
  | cons line reader ih =>
    rw [List.foldlM_cons, List.mapM_cons, readCgroup]
    cases line with
    | error e => rfl
    | ok l =>
      rw [ioResult, Outcome.ok_bind, Outcome.pure_eq, Outcome.ok_bind, Outcome.ok_bind, ih]
      cases reader.mapM ioResult with
      | ok ls => rfl
      | err e => rfl
      | panic => rfl

/-- What is mounted for the lines of the file. -/
def listedMounts (ls : List Chars) : List InitMount :=
  cgroupRoot ::
    ((ls.filter fun l => MountedLine l).map fun l => controllerMount (controller l)) ++
      [readOnlyRoot]

theorem ioResult_eq_ok {x : Except String α} : ioResult x = .ok a ↔ x = .ok a := by
  cases x with
  | ok b => simp [ioResult]
  | error e => simp [ioResult]

theorem mapM_ioResult_eq_ok {reader : List (Except String Chars)} :
    reader.mapM ioResult = .ok ls ↔ reader = ls.map .ok := by
  induction reader generalizing ls with
  | nil =>
    cases ls with
    | nil => exact iff_of_true rfl rfl
    | cons l ls => exact iff_of_false nofun nofun
  | cons line reader ih =>
    rw [List.mapM_cons]
    constructor
    · intro h
      obtain ⟨l, hline, h⟩ := Outcome.bind_eq_ok.1 h
      obtain ⟨ls, hls, h⟩ := Outcome.bind_eq_ok.1 h
      cases h
      rw [ioResult_eq_ok.1 hline, ih.1 hls, List.map_cons]
    · intro h
      cases ls with
      | nil => cases h
      | cons l ls =>
        obtain ⟨hline, hls⟩ := List.cons.inj h
        rw [hline, ih.2 hls]
        rfl

/-- For every content that can be read. -/
theorem getCgroupMounts_of_lines (h : openFile cgPath = .ok (ls.map .ok)) :
    (DevicesEnabled ls → getCgroupMounts openFile cgPath = .ok (listedMounts ls)) ∧
    (¬ DevicesEnabled ls → getCgroupMounts openFile cgPath = .ok []) := by
  obtain ⟨hdevice, hmounts⟩ := foldl_addCgroup ls ⟨false, [cgroupRoot]⟩
  have hscan : getCgroupMounts openFile cgPath =
      if (ls.foldl addCgroup ⟨false, [cgroupRoot]⟩).hasDeviceCgroup = false then .ok []
      else .ok ((ls.foldl addCgroup ⟨false, [cgroupRoot]⟩).cgMounts ++ [readOnlyRoot]) := by
    rw [getCgroupMounts, h, ioResult, Outcome.ok_bind, foldlM_readCgroup, mapM_ioResult_eq_ok.2 rfl]
    rfl
  rw [or_iff_right Bool.false_ne_true] at hdevice
  rw [hscan, hmounts]
  constructor
  · intro hd
    rw [if_neg (by rw [hdevice.2 hd]; exact Bool.true_eq_false_eq_False)]
    rfl
  · intro hd
    rw [if_pos (Bool.eq_false_iff.2 (mt hdevice.1 hd))]

/-- The mounts are listed exactly for the contents that can be read. -/
theorem getCgroupMounts_isOk : (∃ mounts, getCgroupMounts openFile cgPath = .ok mounts) ↔
    ∃ ls : List Chars, openFile cgPath = .ok (ls.map .ok) := by
  constructor
  · intro ⟨mounts, h⟩
    rw [getCgroupMounts] at h
    obtain ⟨reader, hopen, h⟩ := Outcome.bind_eq_ok.1 h
    rw [foldlM_readCgroup] at h
    obtain ⟨s, hread, -⟩ := Outcome.bind_eq_ok.1 h
    obtain ⟨ls, hls, -⟩ := Outcome.bind_eq_ok.1 hread
    exact ⟨ls, (ioResult_eq_ok.1 hopen).trans (congrArg Except.ok (mapM_ioResult_eq_ok.1 hls))⟩
  · intro ⟨ls, h⟩
    obtain ⟨hlisted, hnone⟩ := getCgroupMounts_of_lines h
    by_cases hd : DevicesEnabled ls
    · exact ⟨_, hlisted hd⟩
    · exact ⟨_, hnone hd⟩

end

/-- The root of the cgroups is mounted first and made read-only last, with the mounts of the
controllers between, or nothing is mounted. -/
theorem getCgroupMounts_listed (openFile : LineReader) (cgPath text : String)
    (h : openFile cgPath = .ok ((lines text).map .ok)) :
    ∃ mounts, getCgroupMounts openFile cgPath = .ok mounts ∧
      (mounts = [] ↔
        ¬ ∃ l ∈ lines text, ValidLine l ∧ controller l = "devices".toList) ∧
      (mounts ≠ [] → mounts = cgroupRoot ::
        ((lines text).filter fun l => ValidLine l ∧ controller l ∈ CGROUPS.map Prod.fst).map
          (fun l => controllerMount (controller l)) ++ [readOnlyRoot]) := by
  obtain ⟨hlisted, hnone⟩ := getCgroupMounts_of_lines h
  by_cases hd : DevicesEnabled (lines text)
  · exact ⟨_, hlisted hd, iff_of_false nofun (not_not_intro hd), fun _ => rfl⟩
  · exact ⟨[], hnone hd, iff_of_true rfl hd, fun h => absurd rfl h⟩

/-- A comment, a controller that is disabled and two that are enabled. -/
def cgroupList : String :=
  "#subsys_name\thierarchy\tnum_cgroups\tenabled\ncpuset\t2\t1\t0\ncpu\t3\t1\t1\ndevices\t4\t1\t1\n"

def cgroupListReader : LineReader := fun _ => .ok ((lines cgroupList).map .ok)

theorem getCgroupMounts_cgroupList :
    ∃ mounts, getCgroupMounts cgroupListReader "/proc/cgroups" = .ok mounts ∧
      (mounts = [] ↔
        ¬ ∃ l ∈ lines cgroupList, ValidLine l ∧ controller l = "devices".toList) ∧
      (mounts ≠ [] → mounts = cgroupRoot ::
        ((lines cgroupList).filter fun l => ValidLine l ∧ controller l ∈ CGROUPS.map Prod.fst).map
          (fun l => controllerMount (controller l)) ++ [readOnlyRoot]) :=
  getCgroupMounts_listed cgroupListReader "/proc/cgroups" cgroupList rfl

example : getCgroupMounts (fun _ => .ok ((lines "cpu\t3\t1\t0\ndevices\t4\t1\t1\n").map .ok))
    "/proc/cgroups" = .ok [cgroupRoot, controllerMount "devices".toList, readOnlyRoot] := by
  decide

end KataAgent
