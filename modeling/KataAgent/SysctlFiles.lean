import KataAgent.SysctlRules
import KataAgent.TreePaths
import KataAgent.CallLog

namespace KataAgent
open Fallible TreePaths
set_option autoImplicit true

/-- `ErrorKind` of `std::io`, as far as the code tells it apart, with the text of the error. -/
inductive OpenError where
  | NotFound
  | other (text : String)

/-- The kernel's answers to opening a file for reading and writing, and to the write. -/
structure SysctlGuest where
  openFile : List Char → Option OpenError
  writeAll : List Char → String → Option String

/-- `replace('.', "/")`. -/
def slashed (text : List Char) : List Char := text.map fun c => if c = '.' then '/' else c

/-- The path in the directory of the parameters. -/
def sysctlFile (key : String) : List Char := "/proc/sys/".toList ++ slashed key.toList

/-- The body of the loop of `set_sysctls`; the state is the log of the files that are open for
writing, the last one first. -/
def setSysctl (g : SysctlGuest) (sysctls : Table String String) (key : String) :
    Act (List (List Char)) ErrorKind Unit :=
  match sysctls.lookup key with
  | none => pure ()
  | some value =>
    match g.openFile (sysctlFile key) with
    | some .NotFound => pure ()
    | some (.other text) => Act.fail (.io text)
    | none => do
      Act.modify fun opened => sysctlFile key :: opened
      Act.lift (.ofFault ((g.writeAll (sysctlFile key) value).map .io))

/-- `set_sysctls`, for an order of the keys. -/
def setSysctls (g : SysctlGuest) (sysctls : Table String String) (keys : List String) :
    Act (List (List Char)) ErrorKind Unit := keys.forM (setSysctl g sysctls)

/-- A path that ends in a slash names a directory, which cannot be opened for writing. -/
def SysctlGuest.RefusesDirectories (g : SysctlGuest) : Prop :=
  ∀ path, path.getLast? = some '/' → g.openFile path ≠ none

/-- The files of the keys that the validator lists, and the one of the domain name. -/
def kernelFiles : List (List Char) :=
  ["/proc/sys/kernel/msgmax".toList, "/proc/sys/kernel/msgmnb".toList,
    "/proc/sys/kernel/msgmni".toList, "/proc/sys/kernel/sem".toList,
    "/proc/sys/kernel/shmall".toList, "/proc/sys/kernel/shmmax".toList,
    "/proc/sys/kernel/shmmni".toList, "/proc/sys/kernel/shm_rmid_forced".toList,
    "/proc/sys/kernel/domainname".toList]

/-- A file of the network, of the message queues, or of one of the keys. -/
def NamespacedFile (path : List Char) : Prop :=
  "/proc/sys/net/".toList <+: (lexical path).text ∨
    "/proc/sys/fs/mqueue/".toList <+: (lexical path).text ∨ (lexical path).text ∈ kernelFiles

section
variable {p r : List Char} {key value : String}

theorem component_of_dot_notMem {name : List Char} (hd : '.' ∉ name) (hn : name ≠ []) :
    component name = some (.down name) := by
  rw [component.eq_def]
  split
  · exact absurd rfl hn
  · exact absurd List.mem_cons_self hd
  · exact absurd List.mem_cons_self hd
  · rfl

/-- A text without dots leads down. -/
theorem pathSteps_of_dot_notMem (h : '.' ∉ r) :
    ∃ names : List (List Char), pathSteps r = names.map .down := by
  rw [pathSteps]
  have hparts : ∀ name ∈ r.splitOn '/', '.' ∉ name := by
    intro name hname hdot
    exact h ((infix_of_mem_splitOn hname).subset hdot)
  generalize r.splitOn '/' = parts at hparts ⊢
  induction parts with
  | nil => exact ⟨[], rfl⟩
  | cons name parts ih =>
    obtain ⟨hname, hparts⟩ := List.forall_mem_cons.1 hparts
    obtain ⟨names, hnames⟩ := ih hparts
    by_cases hn : name = []
    · rw [hn, List.filterMap_cons_none rfl]
      exact ⟨names, hnames⟩
    · rw [List.filterMap_cons_some (component_of_dot_notMem hname hn), hnames]
      exact ⟨name :: names, rfl⟩

theorem pathSteps_ne_nil {c : Char} (h : '.' ∉ r) (hc : c ∈ r) (hs : c ≠ '/') :
    pathSteps r ≠ [] := by
  obtain ⟨name, hname, hmem⟩ := Segments.exists_mem_splitOn hc hs
  have hdot : '.' ∉ name := fun hd => h ((infix_of_mem_splitOn hname).subset hd)
  have hdown := component_of_dot_notMem hdot (List.ne_nil_of_mem hmem)
  exact List.ne_nil_of_mem (List.mem_filterMap.2 ⟨name, hname, hdown⟩)

/-- What is appended without dots, and not only slashes, is below. -/
theorem lexical_below {c : Char} (h : '.' ∉ r) (hc : c ∈ r) (hs : c ≠ '/')
    (hp : (lexical p).names ≠ []) :
    (lexical p).text ++ ['/'] <+: (lexical (p ++ '/' :: r)).text := by
  obtain ⟨names, hnames⟩ := pathSteps_of_dot_notMem h
  have hne : names.reverse ≠ [] := by
    intro hnil
    apply pathSteps_ne_nil h hc hs
    rw [hnames, List.reverse_eq_nil_iff.1 hnil]
    rfl
  have hwalk : (lexical (p ++ '/' :: r)).names = names.reverse ++ (lexical p).names := by
    have hdown : walk (lexical p).names (pathSteps r) = names.reverse ++ (lexical p).names := by
      rw [← walk_down, List.reverse_reverse, hnames]
    rw [← hdown]
    change walk [] (pathSteps (p ++ '/' :: r)) = walk (walk [] (pathSteps p)) (pathSteps r)
    rw [pathSteps_append_slash, walk_append]
  obtain ⟨s, htext⟩ := nodeText_append (lexical p).names hne
  have hbelow : (lexical (p ++ '/' :: r)).names ≠ [] := by
    rw [hwalk]
    exact fun hnil => hp (List.append_eq_nil_iff.1 hnil).2
  rw [Canonical.text_of_ne hp, Canonical.text_of_ne hbelow, hwalk, htext]
  exact ⟨s, by rw [List.append_assoc, List.singleton_append]⟩

theorem getLast?_of_slashes (h : ∀ c ∈ r, c = '/') : (p ++ '/' :: r).getLast? = some '/' := by
  have hne : '/' :: r ≠ [] := List.cons_ne_nil _ _
  have hlast := List.getLast_mem hne
  rw [List.getLast?_append, List.getLast?_eq_some_getLast hne, Option.some_or]
  rcases List.mem_cons.1 hlast with hl | hl
  · rw [hl]
  · rw [h _ hl]

theorem dot_notMem_slashed (text : List Char) : '.' ∉ slashed text := by
  intro h
  obtain ⟨c, -, hc⟩ := List.mem_map.1 h
  by_cases hd : c = '.'
  · rw [if_pos hd] at hc
    cases hc
  · rw [if_neg hd] at hc
    exact hd hc

theorem slashed_append (p r : List Char) :
    slashed (p ++ '.' :: r) = slashed p ++ '/' :: slashed r := by
  rw [slashed, List.map_append, List.map_cons, if_pos rfl, slashed, slashed]

theorem sysctlFile_split (h : key.toList = p ++ '.' :: r) :
    sysctlFile key = ("/proc/sys/".toList ++ slashed p) ++ '/' :: slashed r := by
  have hfile : sysctlFile key = "/proc/sys/".toList ++ slashed key.toList := rfl
  rw [hfile, h, slashed_append]
  generalize "/proc/sys/".toList = dir
  exact (List.append_assoc dir _ _).symm

/-- The file of a key is below the directory of each of its parts, if it is no directory. -/
theorem sysctlFile_below (h : key.toList = p ++ '.' :: r)
    (hp : (lexical ("/proc/sys/".toList ++ slashed p)).names ≠ [])
    (hlast : (sysctlFile key).getLast? ≠ some '/') :
    (lexical ("/proc/sys/".toList ++ slashed p)).text ++ ['/'] <+:
      (lexical (sysctlFile key)).text := by
  rw [sysctlFile_split h] at hlast ⊢
  by_cases hslash : ∀ c ∈ slashed r, c = '/'
  · exact absurd (getLast?_of_slashes hslash) hlast
  · obtain ⟨c, hc⟩ := not_forall.1 hslash
    obtain ⟨hc, hs⟩ := Classical.not_imp.1 hc
    exact lexical_below (dot_notMem_slashed r) hc hs hp

theorem net_names : (lexical ("/proc/sys/".toList ++ slashed "net".toList)).names ≠ [] ∧
    (lexical ("/proc/sys/".toList ++ slashed "net".toList)).text ++ ['/'] =
      "/proc/sys/net/".toList := by
  decide

theorem mqueue_names : (lexical ("/proc/sys/".toList ++ slashed "fs.mqueue".toList)).names ≠ [] ∧
    (lexical ("/proc/sys/".toList ++ slashed "fs.mqueue".toList)).text ++ ['/'] =
      "/proc/sys/fs/mqueue/".toList := by
  decide

theorem kernelFiles_listed : ∀ key ∈ "kernel.domainname" :: SYSCTLS,
    (lexical (sysctlFile key)).text ∈ kernelFiles := by
  decide

theorem namespacedFile_of_passed {nses : List LinuxNamespace} (h : SysctlPassed nses key)
    (hlast : (sysctlFile key).getLast? ≠ some '/') : NamespacedFile (sysctlFile key) := by
  rcases h with ⟨hkey | ⟨r, hr⟩, -⟩ | ⟨⟨r, hr⟩, -⟩ | ⟨hkey, -⟩
  · exact .inr (.inr (kernelFiles_listed key (List.mem_cons_of_mem _ hkey)))
  · have hsplit : key.toList = "fs.mqueue".toList ++ '.' :: r := hr.symm
    obtain ⟨hne, htext⟩ := mqueue_names
    exact .inr (.inl (htext ▸ sysctlFile_below hsplit hne hlast))
  · have hsplit : key.toList = "net".toList ++ '.' :: r := hr.symm
    obtain ⟨hne, htext⟩ := net_names
    exact .inl (htext ▸ sysctlFile_below hsplit hne hlast)
  · exact .inr (.inr (kernelFiles_listed key (hkey ▸ List.mem_cons_self)))

theorem setSysctl_logs {g : SysctlGuest} (hg : g.RefusesDirectories) {nses : List LinuxNamespace}
    {sysctls : Table String String} (h : key ∈ sysctls → SysctlPassed nses key) :
    Act.Logs NamespacedFile (setSysctl g sysctls key) := by
  rw [setSysctl]
  cases hl : sysctls.lookup key with
  | none => exact .pure ()
  | some value =>
    have hpassed := h (Finmap.mem_of_lookup_eq_some hl)
    dsimp only
    cases hopen : g.openFile (sysctlFile key) with
    | some e =>
      cases e with
      | NotFound => exact .pure ()
      | other text => exact .lift _
    | none =>
      have hlast : (sysctlFile key).getLast? ≠ some '/' := fun hs => hg _ hs hopen
      apply Act.Logs.bind
      · intro opened
        apply Exists.intro [sysctlFile key]
        exact ⟨rfl, List.forall_mem_singleton.2 (namespacedFile_of_passed hpassed hlast)⟩
      · intro
        exact .lift _

end

/-- With a map that the validator accepts, whatever becomes of the opens and writes, no file of
another parameter is opened. -/
theorem setSysctls_namespaced (g : ValidatorGuest) (oci : Grpc.Spec) (linux : Grpc.Linux)
    (h : oci.linux = some linux) (keys : List String) (hkeys : KeyOrder linux.sysctl keys)
    (haccepted : sysctl g keys oci = .ok ()) (sg : SysctlGuest) (hsg : sg.RefusesDirectories)
    (keys' : List String) (opened : List (List Char))
    (hopened : ∀ path ∈ opened, NamespacedFile path) :
    ∀ path ∈ (setSysctls sg linux.sysctl keys' opened).2, NamespacedFile path := by
  have hpassed := (sysctl_eq_ok h hkeys).1 haccepted
  have hlogs : Act.Logs NamespacedFile (setSysctls sg linux.sysctl keys') :=
    .forM fun key _ => setSysctl_logs hsg (hpassed key)
  obtain ⟨new, hnew, hfiles⟩ := hlogs opened
  rw [hnew]
  intro path hpath
  rcases List.mem_append.1 hpath with hn | ho
  · exact hfiles path hn
  · exact hopened path ho

/-- A kernel that has a file for every key. -/
def openSysctls : SysctlGuest where
  openFile := fun path =>
    if path.getLast? = some '/' then some (.other "Is a directory (os error 21)") else none
  writeAll := fun _ _ => none

theorem openSysctls_refuses : openSysctls.RefusesDirectories := by
  intro path h
  rw [openSysctls]
  dsimp only
  rw [if_pos h]
  exact nofun

theorem setSysctls_somaxconn :
    (setSysctls openSysctls (.singleton "net.core.somaxconn" "1") ["net.core.somaxconn"] []).2 =
      ["/proc/sys/net/core/somaxconn".toList] ∧
    ∀ path ∈ (setSysctls openSysctls (.singleton "net.core.somaxconn" "1")
      ["net.core.somaxconn"] []).2, NamespacedFile path :=
  ⟨by decide,
    setSysctls_namespaced netnsGuest (sysctlSpec "net.core.somaxconn" [⟨"network", ""⟩]) _ rfl
      ["net.core.somaxconn"] (keyOrder_singleton _ _) (by decide) openSysctls
      openSysctls_refuses ["net.core.somaxconn"] [] (List.forall_mem_nil _)⟩

end KataAgent
