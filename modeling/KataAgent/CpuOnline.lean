import KataAgent.CallLog
import KataAgent.CpusetChain
import KataAgent.GreedySearch

namespace KataAgent
open Fallible
set_option autoImplicit true

def CPU_ONLINE_PATH : Chars := "/sys/devices/system/cpu".toList

def MEMORY_ONLINE_PATH : Chars := "/sys/devices/system/memory".toList

def ONLINE_FILE : Chars := "online".toList

/-- The directories and the files of the guest, with the writes that were made before. -/
structure SysGuest extends WriteGuest where
  readDir : Chars → Outcome ErrorKind (List (Outcome ErrorKind Chars))
  read : List FileWrite → String → Except String String

/-- The pattern `kind[0-9]+`. -/
def resourcePattern (kind : String) : List (Element Char) :=
  [.word (kind.toList.map fun p c => c = p), .run Char.isDigit]

def isMatch (re : List (Element Char)) (name : Chars) : Bool := (leftmost re name).isSome

def onlineFile (dir name : Chars) : Chars := filePath (filePath dir name) ONLINE_FILE

def SysGuest.readFile (g : SysGuest) (file : String) : Writing String := do
  let read ← Act.read g.read
  Act.lift (readToString read file)

/-- The loop of `online_resources`. The count wraps around. -/
def onlineEach (g : SysGuest) (dir : Chars) (re : List (Element Char)) (num : Int32) :
    Int32 → List (Outcome ErrorKind Chars) → Writing Int32
  | count, [] => pure count
  | count, e :: es => do
    let name ← Act.lift e
    if isMatch re name then do
      let c ← g.readFile (String.ofList (onlineFile dir name))
      if '0' ∈ trim c.toList then do
        g.writeFile (filePath dir name) ONLINE_FILE "1".toList
        if 0 < num ∧ count + 1 = num then pure (count + 1)
        else onlineEach g dir re num (count + 1) es
      else onlineEach g dir re num count es
    else onlineEach g dir re num count es

def onlineResources (g : SysGuest) (path : Chars) (pattern : List (Element Char)) (num : Int32) :
    Writing Int32 := do
  let entries ← Act.lift (g.readDir path)
  let count ← onlineEach g path pattern num 0 entries
  return if 0 < num then count else 0

def onlineCpus (g : SysGuest) (num : Int32) : Writing Int32 :=
  onlineResources g CPU_ONLINE_PATH (resourcePattern "cpu") num

def onlineMemory (g : SysGuest) : Writing Unit := do
  let _ ← onlineResources g MEMORY_ONLINE_PATH (resourcePattern "memory") (-1)

def getGuestCpuset (g : SysGuest) : Writing String := do
  let read ← Act.read g.read
  let m ← Act.lift do
    let paths ← getPaths <$> readToString read PATHS
    let text ← readToString read MOUNTS
    getMounts paths text
  let dir ← Act.lift (.ofOption (.nix .ENOENT) (m.lookup "cpuset".toList))
  g.readFile (String.ofList (filePath dir CPUSET_CPUS))

structure OnlineCPUMemRequest where
  nbCpus : UInt32
  cpuOnly : Bool

/-- `Sandbox::online_cpu_memory`, with the containers in the order of their map. -/
def onlineCpuMemory (g : SysGuest) (containers : List (Option Manager))
    (req : OnlineCPUMemRequest) : Writing Unit := do
  if 0 < req.nbCpus then do
    let _ ← onlineCpus g req.nbCpus.toInt32
  if !req.cpuOnly then
    onlineMemory g
  let cpuset ← getGuestCpuset g
  containers.forM fun ctr => do
    let m ← Act.lift (.ofUnwrap ctr)
    m.updateCpusetPath g.toWriteGuest cpuset.toList

/-- The directory of the CPUs: its entries, in the order in which they are listed, and what the
online file of an entry holds before it is written, if it has one. -/
structure CpuListing (g : SysGuest) where
  names : List Chars
  nodup : names.Nodup
  online : Chars → Option String
  readDir_eq : g.readDir CPU_ONLINE_PATH = .ok (names.map .ok)
  read_eq : ∀ h, ∀ name ∈ names, (∀ w ∈ h, w.path ≠ onlineFile CPU_ONLINE_PATH name) →
    readToString (g.read h) (String.ofList (onlineFile CPU_ONLINE_PATH name)) =
      .ofOption (.io "No such file or directory (os error 2)") (online name)
  refuses_eq : ∀ h name, g.refuses h ⟨onlineFile CPU_ONLINE_PATH name, "1".toList⟩ = none

namespace CpuListing

/-- A CPU whose online file does not hold 1. -/
def offline (l : CpuListing g) (name : Chars) : Bool :=
  isMatch (resourcePattern "cpu") name && (l.online name).any fun c => '0' ∈ trim c.toList

/-- A CPU without an online file. -/
def missing (l : CpuListing g) (name : Chars) : Bool :=
  isMatch (resourcePattern "cpu") name && (l.online name).isNone

/-- The entries before the first CPU without an online file. -/
def reached (l : CpuListing g) : List Chars := l.names.takeWhile fun name => !l.missing name

end CpuListing

def cpuWrite (name : Chars) : FileWrite := ⟨onlineFile CPU_ONLINE_PATH name, "1".toList⟩

/-- As many CPUs as asked for, or all that are offline, are brought online; each is written once,
and no other entry is. -/
structure BringsOnline (l : CpuListing g) (nbCpus : Nat) (log : List FileWrite) : Prop where
  once : (log.filter fun w => ∃ name ∈ l.names, w.path = onlineFile CPU_ONLINE_PATH name).Nodup
  offline : ∀ w ∈ log, ∀ name ∈ l.names, w.path = onlineFile CPU_ONLINE_PATH name →
    l.offline name = true ∧ w = cpuWrite name
  count : (log.filter fun w => ∃ name ∈ l.names, w.path = onlineFile CPU_ONLINE_PATH name).length =
    min nbCpus (l.names.countP l.offline)

theorem onlineFile_inj {dir name name' : Chars} :
    onlineFile dir name = onlineFile dir name' ↔ name = name' := by
  constructor
  · intro h
    have hdir := List.append_cancel_right h
    exact List.tail_eq_of_cons_eq (List.append_cancel_left hdir)
  · intro h
    rw [h]

/-- At most so many elements, if there is a bound. -/
def takeUpTo : Option Nat → List α → List α
  | none, l => l
  | some n, l => l.take n

@[simp]
theorem takeUpTo_nil (r : Option Nat) : takeUpTo r ([] : List α) = [] := by
  cases r with
  | none => rfl
  | some n => exact List.take_nil

/-- How many more times the loop can count before it is left: no bound when the number is not
positive. -/
inductive Room (num count : Int32) : Option Nat → Prop where
  | unlimited (h : ¬0 < num) : Room num count none
  | upTo (n : Nat) (hn : 0 < n) (hc : 0 ≤ count.toInt) (h : num.toInt = count.toInt + n) :
    Room num count (some n)

theorem toInt_succ {num count : Int32} {n : Nat} (hn : 0 < n) (hc : 0 ≤ count.toInt)
    (h : num.toInt = count.toInt + n) : (count + 1).toInt = count.toInt + 1 := by
  have hlt := num.toInt_lt
  rw [Int32.toInt_add]
  exact Int.bmod_eq_of_le (by simp; omega) (by simp; omega)

/-- The loop is left when the last one was counted. -/
theorem room_stop {num count : Int32} {r : Option Nat} (hr : Room num count r)
    (h : 0 < num ∧ count + 1 = num) : r = some 1 := by
  cases hr with
  | unlimited hnum => exact absurd h.1 hnum
  | upTo n hn hc heq =>
    have hsucc := toInt_succ hn hc heq
    rw [h.2] at hsucc
    exact congrArg some (by omega)

theorem room_next {num count : Int32} {r : Option Nat} (hr : Room num count r)
    (h : ¬(0 < num ∧ count + 1 = num)) : ∃ r', Room num (count + 1) r' ∧
      ∀ (a : α) (l : List α), takeUpTo r (a :: l) = a :: takeUpTo r' l := by
  cases hr with
  | unlimited hnum => exact ⟨none, .unlimited hnum, fun _ _ => rfl⟩
  | upTo n hn hc heq =>
    have hsucc := toInt_succ hn hc heq
    have hpos : 0 < num := Int32.lt_iff_toInt_lt.2 (by rw [heq]; simp; omega)
    have hne : n ≠ 1 := by
      rintro rfl
      exact h ⟨hpos, Int32.toInt_inj.1 (by rw [hsucc, heq]; rfl)⟩
    obtain ⟨m, rfl⟩ : ∃ m, n = m + 1 := ⟨n - 1, by omega⟩
    exact ⟨some m, .upTo m (by omega) (by omega) (by omega), fun _ _ => rfl⟩

section
variable {g : SysGuest} {l : CpuListing g} {name : Chars} {h : List FileWrite}

theorem readFile_apply (g : SysGuest) (file : String) (h : List FileWrite) :
    g.readFile file h = (readToString (g.read h) file, h) := rfl

theorem readFile_none (hname : name ∈ l.names)
    (hfresh : ∀ w ∈ h, w.path ≠ onlineFile CPU_ONLINE_PATH name) (ho : l.online name = none) :
    g.readFile (String.ofList (onlineFile CPU_ONLINE_PATH name)) h =
      (.err (.io "No such file or directory (os error 2)"), h) := by
  rw [readFile_apply, l.read_eq h name hname hfresh, ho]
  rfl

theorem readFile_some {c : String} (hname : name ∈ l.names)
    (hfresh : ∀ w ∈ h, w.path ≠ onlineFile CPU_ONLINE_PATH name) (ho : l.online name = some c) :
    g.readFile (String.ofList (onlineFile CPU_ONLINE_PATH name)) h = (.ok c, h) := by
  rw [readFile_apply, l.read_eq h name hname hfresh, ho]
  rfl

theorem writeFile_online (l : CpuListing g) (name : Chars) (h : List FileWrite) :
    g.writeFile (filePath CPU_ONLINE_PATH name) ONLINE_FILE "1".toList h =
      (.ok (), cpuWrite name :: h) := by
  have hok := l.refuses_eq h name
  rw [onlineFile] at hok
  rw [WriteGuest.writeFile, hok]
  rfl

/-- The loop writes to the offline CPUs that it reaches, in the order of the listing. -/
theorem onlineEach_log (l : CpuListing g) (names : List Chars)
    (hsub : ∀ name ∈ names, name ∈ l.names) (hnodup : names.Nodup) {num count : Int32}
    {r : Option Nat} (hr : Room num count r) (h : List FileWrite)
    (hfresh : ∀ name ∈ names, ∀ w ∈ h, w.path ≠ onlineFile CPU_ONLINE_PATH name) :
    (onlineEach g CPU_ONLINE_PATH (resourcePattern "cpu") num count (names.map .ok) h).2 =
      ((takeUpTo r ((names.takeWhile fun name => !l.missing name).filter l.offline)).map
        cpuWrite).reverse ++ h := by
  induction names generalizing count r h with
  | nil =>
    rw [List.takeWhile_nil, List.filter_nil, takeUpTo_nil]
    rfl
  | cons name names ih =>
    obtain ⟨hname, hsub⟩ := List.forall_mem_cons.1 hsub
    obtain ⟨hnot, hnodup⟩ := List.nodup_cons.1 hnodup
    obtain ⟨hhere, hfresh⟩ := List.forall_mem_cons.1 hfresh
    rw [List.map_cons, onlineEach, Act.bind_ok (Act.lift_apply _)]
    cases hm : isMatch (resourcePattern "cpu") name with
    | false =>
      have hmissing : l.missing name = false := by rw [CpuListing.missing, hm, Bool.false_and]
      have hoffline : l.offline name = false := by rw [CpuListing.offline, hm, Bool.false_and]
      rw [if_neg Bool.false_ne_true, ih hsub hnodup hr h hfresh]
      simp [hmissing, hoffline]
    | true =>
      rw [if_pos rfl]
      cases ho : l.online name with
      | none =>
        have hmissing : l.missing name = true := by rw [CpuListing.missing, hm, ho]; rfl
        rw [Act.bind_err (readFile_none hname hhere ho)]
        simp [hmissing]
      | some c =>
        have hmissing : l.missing name = false := by rw [CpuListing.missing, hm, ho]; rfl
        rw [Act.bind_ok (readFile_some hname hhere ho)]
        by_cases hc : '0' ∈ trim c.toList
        · have hoffline : l.offline name = true := by
            rw [CpuListing.offline, hm, ho]
            simpa using hc
          have hlist : ((name :: names).takeWhile fun name => !l.missing name).filter l.offline =
              name :: (names.takeWhile fun name => !l.missing name).filter l.offline := by
            simp [hmissing, hoffline]
          rw [if_pos hc, Act.bind_ok (writeFile_online l name h), hlist]
          by_cases hstop : 0 < num ∧ count + 1 = num
          · rw [if_pos hstop, room_stop hr hstop]
            rfl
          · obtain ⟨r', hr', htake⟩ := room_next (α := Chars) hr hstop
            have hlater : ∀ other ∈ names, ∀ w ∈ cpuWrite name :: h,
                w.path ≠ onlineFile CPU_ONLINE_PATH other := by
              intro other hother
              refine List.forall_mem_cons.2 ⟨fun heq => ?_, hfresh other hother⟩
              rw [onlineFile_inj.1 heq] at hnot
              exact hnot hother
            rw [if_neg hstop, ih hsub hnodup hr' _ hlater, htake, List.map_cons, List.reverse_cons,
              List.append_assoc]
            rfl
        · have hoffline : l.offline name = false := by
            rw [CpuListing.offline, hm, ho]
            simpa using hc
          rw [if_neg hc, ih hsub hnodup hr h hfresh]
          simp [hmissing, hoffline]

theorem onlineCpus_log (l : CpuListing g) {num : Int32} {r : Option Nat} (hr : Room num 0 r) :
    (onlineCpus g num []).2 =
      ((takeUpTo r (l.reached.filter l.offline)).map cpuWrite).reverse := by
  rw [onlineCpus, onlineResources, l.readDir_eq, Act.bind_ok (Act.lift_apply _),
    Act.bind_pure_apply, onlineEach_log l l.names (fun _ h => h) l.nodup hr [] nofun,
    List.append_nil]
  rfl

/-- The write is to no online file of a CPU. -/
def NotCpu (w : FileWrite) : Prop := ∀ name, w.path ≠ onlineFile CPU_ONLINE_PATH name

theorem notCpu_of_getLast (h : w.path.getLast? ≠ some 'e') : NotCpu w := by
  intro name heq
  rw [heq, onlineFile, filePath, List.getLast?_append] at h
  exact h rfl

theorem notCpu_memory (name value : Chars) :
    NotCpu ⟨onlineFile MEMORY_ONLINE_PATH name, value⟩ := by
  have hfront {dir : Chars} (hd : 21 ≤ dir.length) (name : Chars) :
      (onlineFile dir name).take 21 = dir.take 21 := by
    rw [onlineFile, filePath, filePath, List.append_assoc, List.take_append_of_le_length hd]
  intro other heq
  have htake := congrArg (List.take 21) heq
  dsimp only at htake
  rw [hfront (by decide), hfront (by decide)] at htake
  exact absurd htake (by decide)

theorem writeFile_logs {P : FileWrite → Prop} {w : WriteGuest} {dir file value : Chars}
    (h : P ⟨filePath dir file, value⟩) : Act.Logs P (w.writeFile dir file value) :=
  fun _ => ⟨[⟨filePath dir file, value⟩], rfl, List.forall_mem_singleton.2 h⟩

theorem readFile_logs {P : FileWrite → Prop} (g : SysGuest) (file : String) :
    Act.Logs P (g.readFile file) :=
  .bind (.read _) fun _ => .lift _

theorem onlineEach_logs {P : FileWrite → Prop} {dir : Chars} {re : List (Element Char)}
    {num : Int32} (hp : ∀ name, P ⟨onlineFile dir name, "1".toList⟩) (count : Int32)
    (es : List (Outcome ErrorKind Chars)) : Act.Logs P (onlineEach g dir re num count es) := by
  induction es generalizing count with
  | nil => exact .pure count
  | cons e es ih =>
    rw [onlineEach]
    apply Act.Logs.bind (.lift e)
    intro name
    split
    · apply Act.Logs.bind (readFile_logs g _)
      intro c
      split
      · apply Act.Logs.bind (writeFile_logs (hp name))
        intro _
        split
        · exact .pure _
        · exact ih _
      · exact ih count
    · exact ih count

theorem onlineMemory_logs (g : SysGuest) : Act.Logs NotCpu (onlineMemory g) := by
  apply Act.Logs.bind
  · apply Act.Logs.bind (.lift _)
    intro entries
    apply Act.Logs.bind (onlineEach_logs (fun name => notCpu_memory name _) 0 entries)
    intro count
    exact .pure _
  · intro _
    exact .pure _

theorem getGuestCpuset_logs {P : FileWrite → Prop} (g : SysGuest) :
    Act.Logs P (getGuestCpuset g) := by
  apply Act.Logs.bind (.read _)
  intro read
  apply Act.Logs.bind (.lift _)
  intro m
  apply Act.Logs.bind (.lift _)
  intro dir
  exact readFile_logs g _

theorem enterDir_logs (w : WriteGuest) (cpuset dir d : Chars) :
    Act.Logs NotCpu (enterDir w cpuset dir d) := by
  rw [enterDir]
  split
  · exact .pure dir
  · apply Act.Logs.bind (writeFile_logs (notCpu_of_getLast ?_))
    · intro _
      exact .pure _
    · intro hlast
      rw [filePath, List.getLast?_append] at hlast
      have hchar : some 's' = some 'e' := hlast
      exact absurd hchar (by decide)

theorem updateCpusetPath_logs (w : WriteGuest) (m : Manager) (cpuset : Chars) :
    Act.Logs NotCpu (m.updateCpusetPath w cpuset) := by
  apply Act.Logs.bind (.lift _)
  intro root
  apply Act.Logs.bind (.lift _)
  intro relss
  apply Act.Logs.bind (.foldlM (fun dir d _ => enterDir_logs w cpuset dir d) root)
  intro dir
  apply Act.Logs.bind (.foldlM (fun dir d _ => enterDir_logs w cpuset dir d) dir)
  intro _
  exact .pure _

/-- The log: what later parts wrote, and the CPUs. -/
theorem onlineCpuMemory_log (l : CpuListing g) (containers : List (Option Manager))
    {req : OnlineCPUMemRequest} (hnb : 0 < req.nbCpus) {r : Option Nat}
    (hr : Room req.nbCpus.toInt32 0 r) :
    ∃ later, (onlineCpuMemory g containers req []).2 =
      later ++ ((takeUpTo r (l.reached.filter l.offline)).map cpuWrite).reverse ∧
      ∀ w ∈ later, NotCpu w := by
  have hcpusets : Act.Logs NotCpu (getGuestCpuset g >>= fun cpuset =>
      containers.forM fun ctr => do
        let m ← Act.lift (.ofUnwrap ctr)
        m.updateCpusetPath g.toWriteGuest cpuset.toList) := by
    apply Act.Logs.bind (getGuestCpuset_logs g)
    intro cpuset
    apply Act.Logs.forM
    intro ctr _
    apply Act.Logs.bind (.lift _)
    intro m
    exact updateCpusetPath_logs _ m _
  rw [← onlineCpus_log l hr, onlineCpuMemory, if_pos hnb]
  apply Act.Logs.after
  intro _
  dsimp only
  split
  · apply Act.Logs.bind (onlineMemory_logs g)
    intro _
    exact hcpusets
  · exact hcpusets

/-- The write is to an entry of the listing. -/
abbrev CpuListing.Touches (l : CpuListing g) (w : FileWrite) : Prop :=
  ∃ name ∈ l.names, w.path = onlineFile CPU_ONLINE_PATH name

theorem cpuWrite_inj : Function.Injective cpuWrite := by
  intro name name' h
  exact onlineFile_inj.1 (congrArg FileWrite.path h)

/-- The CPUs that are brought online, when this many are left to count. -/
def CpuListing.brought (l : CpuListing g) (r : Option Nat) : List Chars :=
  takeUpTo r (l.reached.filter l.offline)

theorem brought_sublist (l : CpuListing g) (r : Option Nat) :
    (l.brought r).Sublist (l.names.filter l.offline) := by
  have hreached : (l.reached.filter l.offline).Sublist (l.names.filter l.offline) :=
    (List.takeWhile_sublist _).filter _
  cases r with
  | none => exact hreached
  | some n => exact (List.take_sublist n _).trans hreached

theorem mem_brought {l : CpuListing g} {r : Option Nat} (h : name ∈ l.brought r) :
    name ∈ l.names ∧ l.offline name = true :=
  List.mem_filter.1 ((brought_sublist l r).subset h)

theorem length_brought (l : CpuListing g) (r : Option Nat) :
    (l.brought r).length = r.elim id min (l.reached.countP l.offline) := by
  rw [List.countP_eq_length_filter]
  cases r with
  | none => rfl
  | some n => exact List.length_take

theorem bringsOnline_iff (l : CpuListing g) {later log : List FileWrite} {r : Option Nat} (nb : Nat)
    (hlog : log = later ++ ((l.brought r).map cpuWrite).reverse) (hlater : ∀ w ∈ later, NotCpu w) :
    BringsOnline l nb log ↔ (l.brought r).length = min nb (l.names.countP l.offline) := by
  have hfilter : (log.filter fun w => l.Touches w) = ((l.brought r).map cpuWrite).reverse := by
    have hnone : (later.filter fun w => l.Touches w) = [] := by
      apply List.filter_eq_nil_iff.2
      intro w hw htouch
      obtain ⟨name, -, hpath⟩ := of_decide_eq_true htouch
      exact hlater w hw name hpath
    rw [hlog, List.filter_append, hnone, List.nil_append, List.filter_eq_self]
    intro w hw
    obtain ⟨name, hname, rfl⟩ := List.mem_map.1 (List.mem_reverse.1 hw)
    exact decide_eq_true ⟨name, (mem_brought hname).1, rfl⟩
  constructor
  · intro h
    rw [← h.count, hfilter, List.length_reverse, List.length_map]
  · intro h
    constructor
    case once =>
      rw [hfilter, List.nodup_reverse]
      exact ((l.nodup.filter _).sublist (brought_sublist l r)).map cpuWrite_inj
    case offline =>
      intro w hw name _ hpath
      rw [hlog] at hw
      rcases List.mem_append.1 hw with hw | hw
      · exact absurd hpath (hlater w hw name)
      · obtain ⟨name', hname', rfl⟩ := List.mem_map.1 (List.mem_reverse.1 hw)
        obtain rfl := onlineFile_inj.1 hpath
        exact ⟨(mem_brought hname').2, rfl⟩
    case count => rw [hfilter, List.length_reverse, List.length_map, h]

theorem toInt_toInt32 (n : UInt32) : n.toInt32.toInt = (n.toNat : Int).bmod (2 ^ 32) :=
  n.toBitVec.toInt_eq_toNat_bmod

theorem room_small {n : UInt32} (hpos : 0 < n) (h : n.toNat < 2 ^ 31) :
    Room n.toInt32 0 (some n.toNat) := by
  have hint : n.toInt32.toInt = n.toNat := by
    rw [toInt_toInt32]
    exact Int.bmod_eq_of_le (by omega) (by omega)
  refine .upTo n.toNat (UInt32.lt_iff_toNat_lt.1 hpos) (Int.le_refl 0) ?_
  rw [hint]
  simp

/-- From 2^31 on the number is negative. -/
theorem room_large {n : UInt32} (h : ¬n.toNat < 2 ^ 31) : Room n.toInt32 0 none := by
  have hlt := n.toNat_lt
  have hint : n.toInt32.toInt = n.toNat - 2 ^ 32 := by
    rw [toInt_toInt32, Int.bmod_def, Int.emod_eq_of_lt (by omega) (by omega), if_neg (by omega)]
    rfl
  refine .unlimited fun hpos => ?_
  have hpos := Int32.lt_iff_toInt_lt.1 hpos
  rw [hint, Int32.toInt_zero] at hpos
  omega

/-- As many CPUs as asked for are brought online exactly when so many are listed before the first
CPU without an online file and, when the number is negative as a signed one, no more of them. -/
theorem onlineCpuMemory_bringsOnline (l : CpuListing g) (containers : List (Option Manager))
    (req : OnlineCPUMemRequest) (hnb : 0 < req.nbCpus) :
    BringsOnline l req.nbCpus.toNat (onlineCpuMemory g containers req []).2 ↔
      min req.nbCpus.toNat (l.names.countP l.offline) ≤ l.reached.countP l.offline ∧
        (req.nbCpus.toNat < 2 ^ 31 ∨ l.reached.countP l.offline ≤ req.nbCpus.toNat) := by
  have hle : l.reached.countP l.offline ≤ l.names.countP l.offline :=
    (List.takeWhile_sublist _).countP_le
  by_cases hsmall : req.nbCpus.toNat < 2 ^ 31
  · obtain ⟨later, hlog, hlater⟩ := onlineCpuMemory_log l containers hnb (room_small hnb hsmall)
    rw [bringsOnline_iff l _ hlog hlater, length_brought]
    dsimp only [Option.elim]
    omega
  · obtain ⟨later, hlog, hlater⟩ := onlineCpuMemory_log l containers hnb (room_large hsmall)
    rw [bringsOnline_iff l _ hlog hlater, length_brought]
    dsimp only [Option.elim, id]
    omega

end

/-- A guest with the given entries, of which only `cpu1` has an online file. -/
def cpuGuest (names : List Chars) : SysGuest where
  refuses _ _ := none
  readDir path := if path = CPU_ONLINE_PATH then .ok (names.map .ok) else .ok []
  read h file :=
    if file = String.ofList (onlineFile CPU_ONLINE_PATH "cpu1".toList) then
      match h.find? fun w => w.path = onlineFile CPU_ONLINE_PATH "cpu1".toList with
      | some w => .ok (String.ofList w.value)
      | none => .ok "0\n"
    else .error "No such file or directory (os error 2)"

def cpuListing (names : List Chars) (nodup : names.Nodup) : CpuListing (cpuGuest names) where
  names := names
  nodup := nodup
  online name := if name = "cpu1".toList then some "0\n" else none
  readDir_eq := by simp only [cpuGuest, if_true]
  read_eq h name _ hfresh := by
    by_cases hname : name = "cpu1".toList
    · have hfind : (h.find? fun w => w.path = onlineFile CPU_ONLINE_PATH "cpu1".toList) = none := by
        apply List.find?_eq_none.2
        intro w hw hpath
        rw [hname] at hfresh
        exact hfresh w hw (of_decide_eq_true hpath)
      rw [readToString, if_pos hname, hname]
      simp only [cpuGuest, if_true, hfind]
      rfl
    · have hfile : String.ofList (onlineFile CPU_ONLINE_PATH name) ≠
          String.ofList (onlineFile CPU_ONLINE_PATH "cpu1".toList) :=
        fun heq => hname (onlineFile_inj.1 (String.ofList_inj.1 heq))
      rw [readToString, if_neg hname]
      simp only [cpuGuest, if_neg hfile]
      rfl
  refuses_eq _ _ := rfl

theorem onlineCpuMemory_bootLast :
    BringsOnline (cpuListing ["cpu1".toList, "cpu0".toList] (by decide)) 1
      (onlineCpuMemory (cpuGuest ["cpu1".toList, "cpu0".toList]) [] ⟨1, true⟩ []).2 :=
  (onlineCpuMemory_bringsOnline (cpuListing ["cpu1".toList, "cpu0".toList] (by decide)) []
    ⟨1, true⟩ (by decide)).2 (by decide)

/-- The CPU without an online file comes first. -/
theorem onlineCpuMemory_bootFirst :
    ¬ ∀ (g : SysGuest) (l : CpuListing g) (containers : List (Option Manager))
      (req : OnlineCPUMemRequest), 0 < req.nbCpus →
        BringsOnline l req.nbCpus.toNat (onlineCpuMemory g containers req []).2 := by
  intro h
  have hcount := (h _ (cpuListing ["cpu0".toList, "cpu1".toList] (by decide)) [] ⟨1, true⟩
    (by decide)).count
  have hlog : (onlineCpuMemory (cpuGuest ["cpu0".toList, "cpu1".toList]) [] ⟨1, true⟩ []).2 =
      [] := by decide
  rw [hlog] at hcount
  exact absurd hcount (by decide)

end KataAgent
