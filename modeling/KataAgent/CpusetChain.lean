import Mathlib.Data.List.Infix
import KataAgent.CgroupPaths
import KataAgent.ParentCopies
import KataAgent.TreePaths

namespace KataAgent
open Fallible TreePaths
set_option autoImplicit true

def CPUSET_CPUS : Chars := "cpuset.cpus".toList

structure FileWrite where
  path : Chars
  value : Chars
  deriving DecidableEq

/-- What the kernel answers to a write, with the writes before it, the latest first. -/
structure WriteGuest where
  refuses : List FileWrite → FileWrite → Option String

abbrev Writing := Act (List FileWrite) ErrorKind

/-- `write_file`. -/
def WriteGuest.writeFile (g : WriteGuest) (dir file value : Chars) : Writing Unit := fun h =>
  (.ofFault ((g.refuses h ⟨filePath dir file, value⟩).map .io), ⟨filePath dir file, value⟩ :: h)

/-- The body of the loops of `update_cpuset_path`. -/
def enterDir (g : WriteGuest) (cpuset dir d : Chars) : Writing Chars :=
  if d = [] then pure dir
  else do
    g.writeFile (dir ++ '/' :: d) CPUSET_CPUS cpuset
    return dir ++ '/' :: d

def Manager.updateCpusetPath (g : WriteGuest) (m : Manager) (cpuset : Chars) : Writing Unit := do
  let root ← Act.lift (.ofOption (.nix .ENOENT) (m.mounts.lookup "cpuset".toList))
  let relss ← Act.lift (.ofOption (.nix .ENOENT) (m.rels.lookup "cpuset".toList))
  let dir ← (relss.splitOn '/').foldlM (enterDir g cpuset) root
  let _ ← (m.cpath.splitOn '/').foldlM (enterDir g cpuset) dir

/-- The names in a path. Paths that differ in repeated slashes have the same. -/
def pathNames (path : Chars) : List Chars := (path.splitOn '/').filter (· ≠ [])

/-- The directories on the way down from a directory. -/
def chainBelow (dir : Chars) : List Chars → List Chars
  | [] => []
  | d :: ds => (dir ++ '/' :: d) :: chainBelow (dir ++ '/' :: d) ds

section
variable {g : WriteGuest} {cpuset dir d p q : Chars} {ds : List Chars}

theorem pathNames_append_slash : pathNames (p ++ '/' :: q) = pathNames p ++ pathNames q := by
  rw [pathNames, List.splitOn_append_cons_self, List.filter_append]
  rfl

theorem pathNames_cons_slash : pathNames ('/' :: p) = pathNames p :=
  pathNames_append_slash (p := [])

theorem pathNames_of_notMem (hs : '/' ∉ p) (hne : p ≠ []) : pathNames p = [p] := by
  rw [pathNames, List.splitOn_eq_singleton hs, List.filter_cons, if_pos (decide_eq_true hne)]
  rfl

theorem pathNames_absolute_append (hp : q.head? = some '/') :
    pathNames (p ++ q) = pathNames p ++ pathNames q := by
  obtain ⟨r, rfl⟩ := List.head?_eq_some_iff.1 hp
  rw [pathNames_append_slash, pathNames_cons_slash]

theorem of_mem_pathNames (h : d ∈ pathNames p) : '/' ∉ d ∧ d ≠ [] := by
  obtain ⟨hm, hne⟩ := List.mem_filter.1 h
  exact ⟨Segments.notMem_of_mem_splitOn hm, of_decide_eq_true hne⟩

/-- The writes of the chain. -/
def WriteGuest.writeAll (g : WriteGuest) (cpuset : Chars) (dirs : List Chars) : Writing Unit :=
  dirs.forM fun dir => g.writeFile dir CPUSET_CPUS cpuset

theorem writeAll_append (as bs : List Chars) :
    g.writeAll cpuset (as ++ bs) = g.writeAll cpuset as >>= fun _ => g.writeAll cpuset bs :=
  Act.forM_append

/-- A loop of the function writes the chain of the names that are not empty. -/
theorem foldlM_enterDir (parts : List Chars) (dir : Chars) :
    parts.foldlM (enterDir g cpuset) dir =
      g.writeAll cpuset (chainBelow dir (parts.filter (· ≠ []))) >>= fun _ =>
        pure ((parts.filter (· ≠ [])).foldl (fun dir d => dir ++ '/' :: d) dir) := by
  induction parts generalizing dir with
  | nil => rfl
  | cons d parts ih =>
    rw [List.foldlM_cons, enterDir, List.filter_cons]
    by_cases hd : d = []
    · rw [if_pos hd, if_neg (fun h => absurd hd (of_decide_eq_true h))]
      exact ih dir
    · rw [if_neg hd, if_pos (decide_eq_true hd), Act.bind_assoc]
      have hcons : g.writeAll cpuset
          (chainBelow dir (d :: parts.filter (· ≠ []))) =
        g.writeFile (dir ++ '/' :: d) CPUSET_CPUS cpuset >>= fun _ =>
          g.writeAll cpuset (chainBelow (dir ++ '/' :: d) (parts.filter (· ≠ []))) := rfl
      rw [hcons, Act.bind_assoc]
      refine congrArg _ (funext fun _ => ?_)
      exact ih (dir ++ '/' :: d)

theorem chainBelow_append (as bs : List Chars) (dir : Chars) : chainBelow dir (as ++ bs) =
    chainBelow dir as ++ chainBelow (as.foldl (fun dir d => dir ++ '/' :: d) dir) bs := by
  induction as generalizing dir with
  | nil => rfl
  | cons a as ih => exact congrArg _ (ih _)

/-- The names of the chain are the prefixes of its names. -/
theorem chainBelow_names (hd : ∀ d ∈ ds, '/' ∉ d ∧ d ≠ []) (dir : Chars) :
    (chainBelow dir ds).map pathNames = ds.inits.tail.map fun l => pathNames dir ++ l := by
  induction ds generalizing dir with
  | nil => rfl
  | cons d ds ih =>
    obtain ⟨⟨hs, hne⟩, hds⟩ := List.forall_mem_cons.1 hd
    have hnames : pathNames (dir ++ '/' :: d) = pathNames dir ++ [d] := by
      rw [pathNames_append_slash, pathNames_of_notMem hs hne]
    have hinits : ds.inits = [] :: ds.inits.tail := by
      cases ds with
      | nil => rfl
      | cons d' ds => rfl
    rw [chainBelow, List.map_cons, ih hds, hnames, List.inits_cons, List.tail_cons, hinits,
      List.map_cons, List.map_cons, List.tail_cons, List.map_map]
    refine congrArg _ (List.map_congr_left fun l _ => ?_)
    exact List.append_assoc _ _ _

theorem chainBelow_below (h : d ∈ chainBelow dir ds) : ∃ rest, d = dir ++ '/' :: rest := by
  induction ds generalizing dir with
  | nil => cases h
  | cons x ds ih =>
    rcases List.mem_cons.1 h with rfl | h
    · exact ⟨x, rfl⟩
    · obtain ⟨rest, hr⟩ := ih h
      refine ⟨x ++ '/' :: rest, ?_⟩
      rw [hr, List.append_assoc]
      rfl

/-- The prefixes of a list that are longer than a part at its start. -/
theorem inits_drop (as bs : List Chars) :
    (as ++ bs).inits.drop (as.length + 1) = bs.inits.tail.map fun l => as ++ l := by
  rw [List.inits_append]
  exact List.drop_left' (List.length_inits as)

theorem writeAll_log (hg : ∀ h c, g.refuses h c = none) (dirs : List Chars) (h : List FileWrite) :
    g.writeAll cpuset dirs h =
      (.ok (), (dirs.map fun d => ⟨filePath d CPUSET_CPUS, cpuset⟩).reverse ++ h) := by
  induction dirs generalizing h with
  | nil => rfl
  | cons d dirs ih =>
    have hwrite : g.writeFile d CPUSET_CPUS cpuset h =
        (.ok (), ⟨filePath d CPUSET_CPUS, cpuset⟩ :: h) := by
      rw [WriteGuest.writeFile, hg]
      rfl
    change (g.writeFile d CPUSET_CPUS cpuset >>= fun _ => g.writeAll cpuset dirs) h = _
    rw [Act.bind_ok hwrite, ih, List.map_cons, List.reverse_cons, List.append_assoc]
    rfl

theorem component_of_plain (hne : d ≠ []) (hd : d ≠ ['.'] ∧ d ≠ ['.', '.']) :
    component d = some (.down d) := by
  unfold component
  split
  · exact absurd rfl hne
  · exact absurd rfl hd.1
  · exact absurd rfl hd.2
  · rfl

/-- Where no name is `.` or `..`, the names are the place that the path leads to. -/
theorem lexical_names (hd : ∀ d ∈ pathNames p, d ≠ ['.'] ∧ d ≠ ['.', '.']) :
    (lexical p).names = (pathNames p).reverse := by
  have hskip (parts : List Chars) :
      parts.filterMap component = (parts.filter (· ≠ [])).filterMap component := by
    induction parts with
    | nil => rfl
    | cons x parts ih =>
      by_cases hx : x = []
      · rw [hx]
        exact ih
      · rw [List.filter_cons, if_pos (decide_eq_true hx), List.filterMap_cons, List.filterMap_cons,
          ih]
  have hsteps : pathSteps p = (pathNames p).map .down := by
    rw [pathSteps, hskip]
    have hall : ∀ d ∈ pathNames p, component d = some (.down d) := by
      intro d hm
      exact component_of_plain (of_mem_pathNames hm).2 (hd d hm)
    rw [pathNames] at hall ⊢
    rw [List.filterMap_congr hall, List.filterMap_eq_map']
  have hwalk : walk [] ((pathNames p).reverse.reverse.map Step.down) =
      (pathNames p).reverse ++ [] := walk_down (pathNames p).reverse
  rw [List.reverse_reverse, List.append_nil] at hwalk
  change walk [] (pathSteps p) = _
  rw [hsteps, hwalk]

end

section
variable {g : WriteGuest} {m : Manager} {cpuset root value : Chars}

/-- The function is one loop over the chain of the relative path and of the container's. -/
theorem updateCpusetPath_eq (hr : m.mounts.lookup "cpuset".toList = some root)
    (hv : m.rels.lookup "cpuset".toList = some value) :
    m.updateCpusetPath g cpuset =
      g.writeAll cpuset (chainBelow root (pathNames value ++ pathNames m.cpath)) := by
  have hpure {α : Type} (a : α) : (Act.lift (.ok a) : Writing α) = pure a := rfl
  rw [Manager.updateCpusetPath, hr, hv, Outcome.ofOption, Outcome.ofOption, hpure, hpure]
  change ((value.splitOn '/').foldlM (enterDir g cpuset) root >>= fun dir =>
    (m.cpath.splitOn '/').foldlM (enterDir g cpuset) dir >>= fun _ => pure ()) = _
  rw [foldlM_enterDir, Act.bind_assoc, chainBelow_append, writeAll_append]
  refine congrArg _ (funext fun _ => ?_)
  change ((m.cpath.splitOn '/').foldlM (enterDir g cpuset) _ >>= fun _ => pure ()) = _
  rw [foldlM_enterDir, Act.bind_assoc]
  exact Act.bind_pure _

/-- Without a cpuset cgroup nothing is written. -/
theorem updateCpusetPath_none (h : List FileWrite)
    (hn : m.mounts.lookup "cpuset".toList = none ∨ m.rels.lookup "cpuset".toList = none) :
    m.updateCpusetPath g cpuset h = (.err (.nix .ENOENT), h) := by
  rw [Manager.updateCpusetPath]
  rcases hn with hn | hn
  · rw [hn]
    rfl
  · rw [hn]
    cases m.mounts.lookup "cpuset".toList with
    | none => rfl
    | some root => rfl

end

theorem head?_stripReturn {l : Chars} (h : l.head? = some '/') :
    (stripReturn l).head? = some '/' := by
  obtain ⟨r, rfl⟩ := List.head?_eq_some_iff.1 h
  rw [stripReturn]
  split
  · rename_i hl
    cases r with
    | nil => cases hl
    | cons c r => rfl
  · rfl

/-- The relative paths that a manager reads are absolute ones. -/
theorem readPaths_absolute {es : List CgroupLine} {key value : Chars}
    (h : lastOf (readPaths es) key = some value) : value.head? = some '/' := by
  obtain ⟨e, he, -, rfl⟩ := lastOf_mem h
  obtain ⟨l, -, rfl⟩ := List.mem_map.1 he
  exact head?_stripReturn l.absolute

/-- The names of a joined path, also where the relative path is `/`. -/
theorem pathNames_belowMount (root : Chars) {value cpath : Chars} (hv : value.head? = some '/')
    (hc : cpath.head? = some '/') : pathNames (root ++ belowMount value cpath) =
      pathNames root ++ (pathNames value ++ pathNames cpath) := by
  rw [belowMount]
  split
  · rename_i hslash
    rw [hslash, pathNames_absolute_append hc]
    rfl
  · rw [← List.append_assoc, pathNames_absolute_append hc, pathNames_absolute_append hv,
      List.append_assoc]

/-- The names of the chain are the prefixes of the joined path below the mount point. -/
theorem chainBelow_prefixes (root value cpath : Chars) :
    (chainBelow root (pathNames value ++ pathNames cpath)).map pathNames =
      (pathNames root ++ (pathNames value ++ pathNames cpath)).inits.drop
        ((pathNames root).length + 1) := by
  have hall : ∀ d ∈ pathNames value ++ pathNames cpath, '/' ∉ d ∧ d ≠ [] := by
    intro d hd
    rcases List.mem_append.1 hd with hd | hd
    · exact of_mem_pathNames hd
    · exact of_mem_pathNames hd
  rw [inits_drop, chainBelow_names hall]

/-- For a manager of `Manager::new`, the new cpuset goes to the directories whose names are the
prefixes of those of the cpuset path that are longer than the mount point, each after its parent.
They are places of their own where no name is `.` or `..`. -/
theorem updateCpusetPath_chain (o : HashOrder) (es : List CgroupLine) (ls : List MountLine)
    (cpath : Chars) (m : Manager) (root path cpuset : Chars)
    (hm : Manager.new (procFiles es ls) o cpath = .ok m)
    (hr : m.mounts.lookup "cpuset".toList = some root)
    (hp : m.paths.lookup "cpuset".toList = some path) :
    ∃ dirs : List Chars,
      dirs.map pathNames = (pathNames path).inits.drop ((pathNames root).length + 1) ∧
      pathNames root <+: pathNames path ∧ (∀ d ∈ dirs, ∃ rest, d = root ++ '/' :: rest) ∧
      ((∀ d ∈ pathNames path, d ≠ ['.'] ∧ d ≠ ['.', '.']) →
        ∀ dir ∈ dirs, (lexical dir).names = (pathNames dir).reverse) ∧
      ∀ g : WriteGuest, m.updateCpusetPath g cpuset = g.writeAll cpuset dirs ∧
        ((∀ h c, g.refuses h c = none) → ∀ h, m.updateCpusetPath g cpuset h =
          (.ok (), (dirs.map fun d => ⟨filePath d CPUSET_CPUS, cpuset⟩).reverse ++ h)) := by
  obtain ⟨hc, hcpath, hrels, -, hpaths⟩ := Manager.new_fields hm
  rw [hpaths, joined, hr] at hp
  cases hv : m.rels.lookup "cpuset".toList with
  | none =>
    rw [hv] at hp
    cases hp
  | some value =>
    rw [hv] at hp
    cases hp
    have habs : value.head? = some '/' := readPaths_absolute ((hrels _).symm.trans hv)
    have hnames := pathNames_belowMount root habs hc
    have hchain := chainBelow_prefixes root value cpath
    rw [← hnames] at hchain
    refine ⟨chainBelow root (pathNames value ++ pathNames cpath), hchain, ?_, ?_, ?_, ?_⟩
    · rw [hnames]
      exact List.prefix_append _ _
    · intro d hd
      exact chainBelow_below hd
    · intro hplain dir hdir
      have hmem := List.mem_map_of_mem (f := pathNames) hdir
      rw [hchain] at hmem
      have hinit := (List.mem_inits _ _).1 (List.mem_of_mem_drop hmem)
      exact lexical_names fun d hd => hplain d (hinit.subset hd)
    · intro g
      have heq : m.updateCpusetPath g cpuset =
          g.writeAll cpuset (chainBelow root (pathNames value ++ pathNames m.cpath)) :=
        updateCpusetPath_eq hr hv
      rw [hcpath] at heq
      refine ⟨heq, ?_⟩
      intro hg h
      rw [heq]
      exact writeAll_log hg _ h

def cpusetLine : CgroupLine where
  id := "3".toList
  controllers := ["cpuset".toList]
  path := "/pod/".toList
  id_ok := by decide
  controllers_ok := by decide
  path_ok := by decide
  absolute := by decide

def cpusetMount : MountLine where
  lead := ["35".toList, "25".toList, "0:30".toList, "/".toList]
  mountPoint := "/sys/cpuset".toList
  tail := ["rw".toList]
  fstype := "cgroup".toList
  source := "cgroup".toList
  options := "rw,cpuset".toList
  lead_length := rfl
  before_ok := by decide
  fstype_ok := cpuMount.fstype_ok
  source_ok := cpuMount.source_ok
  options_ok := by decide
  names_ok := by decide

theorem updateCpusetPath_pod : ∃ m, Manager.new (procFiles [cpusetLine] [cpusetMount]) sortedOrder
      "//c1/".toList = .ok m ∧
    ∃ dirs : List Chars, dirs.map pathNames =
        [["sys".toList, "cpuset".toList, "pod".toList],
          ["sys".toList, "cpuset".toList, "pod".toList, "c1".toList]] ∧
      m.updateCpusetPath ⟨fun _ _ => none⟩ "0-7".toList [] =
        (.ok (), (dirs.map fun d => ⟨filePath d CPUSET_CPUS, "0-7".toList⟩).reverse) := by
  have habs : "//c1/".toList.head? = some '/' := by decide
  obtain ⟨m, -, -, hm, -⟩ := Manager.new_eq sortedOrder [cpusetLine] [cpusetMount] habs
  obtain ⟨-, -, hrels, hmounts, hpaths⟩ := Manager.new_fields hm
  have hrel : m.rels.lookup "cpuset".toList = some "/pod/".toList := (hrels _).trans (by decide)
  have hroot : m.mounts.lookup "cpuset".toList = some "/sys/cpuset".toList := by
    rw [hmounts, if_pos (Finmap.mem_of_lookup_eq_some hrel)]
    decide
  have hpath : m.paths.lookup "cpuset".toList = some "/sys/cpuset/pod///c1/".toList := by
    rw [hpaths, joined, hrel, hroot]
    decide
  obtain ⟨dirs, hnames, -, -, -, hwrites⟩ := updateCpusetPath_chain sortedOrder [cpusetLine]
    [cpusetMount] "//c1/".toList m "/sys/cpuset".toList "/sys/cpuset/pod///c1/".toList
    "0-7".toList hm hroot hpath
  refine ⟨m, hm, dirs, hnames.trans (by decide), ?_⟩
  rw [(hwrites ⟨fun _ _ => none⟩).2 (fun _ _ => rfl) [], List.append_nil]

end KataAgent
