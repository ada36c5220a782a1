import KataAgent.Message
import KataAgent.Table

namespace KataAgent
open Fallible
set_option autoImplicit true

/-- `char::is_whitespace`. -/
def isWhitespace (c : Char) : Bool :=
  let n := c.toNat
  (9 ≤ n && n ≤ 13) || n = 0x20 || n = 0x85 || n = 0xA0 || n = 0x1680 ||
    (0x2000 ≤ n && n ≤ 0x200A) || n = 0x2028 || n = 0x2029 || n = 0x202F || n = 0x205F || n = 0x3000

def splitWhitespace (line : List Char) : List (List Char) :=
  (line.splitOnP isWhitespace).filter (· ≠ [])

/-- `str::trim`. -/
def trim (cs : List Char) : List Char :=
  ((cs.dropWhile isWhitespace).reverse.dropWhile isWhitespace).reverse

def endLines : List (List Char) → List (List Char)
  | [] => []
  | [line] => if line = [] then [] else [line]
  | line :: rest => (if line.getLast? = some '\r' then line.dropLast else line) :: endLines rest

/-- `str::lines`, where the ending of the last line is optional. -/
def lines (text : String) : List (List Char) := endLines (text.toList.splitOn '\n')

/-- `str::parse::<u64>`. -/
def parseU64 (cs : List Char) : Outcome ErrorKind UInt64 :=
  match cs with
  | [] => .err (.parse "cannot parse integer from empty string")
  | '+' :: [] => .err (.parse "invalid digit found in string")
  | '+' :: digits => go 0 digits
  | digits => go 0 digits
where
  go (n : Nat) : List Char → Outcome ErrorKind UInt64
    | [] => .ok (UInt64.ofNat n)
    | c :: cs =>
      if c.isDigit then
        let n' := 10 * n + (c.toNat - '0'.toNat)
        if n' < 2 ^ 64 then go n' cs
        else .err (.parse "number too large to fit in target type")
      else .err (.parse "invalid digit found in string")

/-- The files of the guest's cgroups. -/
structure CgroupGuest where
  /-- `fs::read_to_string`, or the text of its error. -/
  read : String → Except String String
  /-- The labels of `HUGEPAGESIZES`. -/
  hugepageSizes : List String
  /-- The division by `CLOCK_TICKS` in floating point. -/
  perTick : UInt64 → UInt64

structure CpuUsage where
  totalUsage : UInt64
  percpuUsage : List UInt64
  usageInKernelmode : UInt64
  usageInUsermode : UInt64
  deriving DecidableEq

structure ThrottlingData where
  periods : UInt64
  throttledPeriods : UInt64
  throttledTime : UInt64
  deriving DecidableEq

structure CpuStats where
  cpuUsage : Option CpuUsage
  throttlingData : Option ThrottlingData
  deriving DecidableEq

structure PidsStats where
  current : UInt64
  limit : UInt64
  deriving DecidableEq

structure MemoryData where
  usage : UInt64
  maxUsage : UInt64
  failcnt : UInt64
  limit : UInt64
  deriving DecidableEq

structure MemoryStats where
  cache : UInt64
  usage : Option MemoryData
  swapUsage : Option MemoryData
  kernelUsage : Option MemoryData
  useHierarchy : Bool
  stats : Table String UInt64
  deriving DecidableEq

structure BlkioStatsEntry where
  major : UInt64
  minor : UInt64
  op : String
  value : UInt64
  deriving DecidableEq

structure BlkioStats where
  ioServiceBytesRecursive : List BlkioStatsEntry
  ioServicedRecursive : List BlkioStatsEntry
  ioQueuedRecursive : List BlkioStatsEntry
  ioServiceTimeRecursive : List BlkioStatsEntry
  ioWaitTimeRecursive : List BlkioStatsEntry
  ioMergedRecursive : List BlkioStatsEntry
  ioTimeRecursive : List BlkioStatsEntry
  sectorsRecursive : List BlkioStatsEntry
  deriving DecidableEq

structure HugetlbStats where
  usage : UInt64
  maxUsage : UInt64
  failcnt : UInt64
  deriving DecidableEq

structure CgroupStats where
  cpuStats : Option CpuStats
  memoryStats : Option MemoryStats
  pidsStats : Option PidsStats
  blkioStats : Option BlkioStats
  hugetlbStats : Table String HugetlbStats
  deriving DecidableEq

variable {g : CgroupGuest} {dir file : String}

/-- The text of `io::ErrorKind::NotFound`. -/
def notFound : String := "No such file or directory (os error 2)"

def nanoPerSecond : UInt64 := 1000000000

def CgroupGuest.readFile (g : CgroupGuest) (dir file : String) : Outcome ErrorKind String :=
  match g.read (dir ++ "/" ++ file) with
  | .ok text => .ok text
  | .error e => .err (.io e)

/-- The loop of `get_param_key_u64`. -/
def keyU64 (m : Table String UInt64) : List (List Char) → Outcome ErrorKind (Table String UInt64)
  | [] => .ok m
  | l :: ls =>
    match l.splitOn ' ' with
    | [key, value] => do
      let v ← parseU64 (trim value)
      keyU64 (m.insert (String.ofList key) v) ls
    | _ => keyU64 m ls

def getParamKeyU64 (g : CgroupGuest) (dir file : String) :
    Outcome ErrorKind (Table String UInt64) := do
  let text ← g.readFile dir file
  keyU64 ∅ (lines text)

def getParamU64 (g : CgroupGuest) (dir file : String) : Outcome ErrorKind UInt64 := do
  let text ← g.readFile dir file
  parseU64 (trim text.toList)

def percpuUsage : List (List Char) → Outcome ErrorKind (List UInt64)
  | [] => .ok []
  | n :: ns =>
    if trim n = [] then percpuUsage ns
    else do
      let v ← parseU64 (trim n)
      let vs ← percpuUsage ns
      .ok (v :: vs)

def getPercpuUsage (g : CgroupGuest) (dir file : String) : Outcome ErrorKind (List UInt64) := do
  let text ← g.readFile dir file
  percpuUsage (text.toList.splitOn ' ')

def CpuAcct.getStats (g : CgroupGuest) (dir : String) : Outcome ErrorKind CpuUsage := do
  let h ← getParamKeyU64 g dir "cpuacct.stat"
  let user ← .ofUnwrap (h.lookup "user")
  let system ← .ofUnwrap (h.lookup "system")
  let totalUsage ← getParamU64 g dir "cpuacct.usage"
  let percpuUsage ← getPercpuUsage g dir "cpuacct.usage_percpu"
  .ok {
    totalUsage := totalUsage
    percpuUsage := percpuUsage
    usageInKernelmode := g.perTick (system * nanoPerSecond)
    usageInUsermode := g.perTick (user * nanoPerSecond) }

def Cpu.getStats (g : CgroupGuest) (dir : String) : Outcome ErrorKind ThrottlingData := do
  let h ← getParamKeyU64 g dir "cpu.stat"
  let periods ← .ofUnwrap (h.lookup "nr_periods")
  let throttledPeriods ← .ofUnwrap (h.lookup "nr_throttled")
  let throttledTime ← .ofUnwrap (h.lookup "throttled_time")
  .ok ⟨periods, throttledPeriods, throttledTime⟩

def memoryFile (sub file : String) : String :=
  if sub = "" then "memory." ++ file else "memory." ++ sub ++ "." ++ file

def getMemoryData (g : CgroupGuest) (dir sub : String) : Outcome ErrorKind MemoryData := do
  let usage ← getParamU64 g dir (memoryFile sub "usage_in_bytes")
  let maxUsage ← getParamU64 g dir (memoryFile sub "max_usage_in_bytes")
  let failcnt ← getParamU64 g dir (memoryFile sub "failcnt")
  let limit ← getParamU64 g dir (memoryFile sub "limit_in_bytes")
  .ok ⟨usage, maxUsage, failcnt, limit⟩

def getExistMemoryData (g : CgroupGuest) (dir sub : String) :
    Outcome ErrorKind (Option MemoryData) :=
  match getMemoryData g dir sub with
  | .err (.io e) => if e = notFound then .ok none else .err (.io e)
  | .ok r => .ok (some r)
  | .err e => .err e
  | .panic => .panic

def Memory.getStats (g : CgroupGuest) (dir : String) : Outcome ErrorKind MemoryStats := do
  let h ← getParamKeyU64 g dir "memory.stat"
  let cache ← .ofUnwrap (h.lookup "cache")
  let value ← getParamU64 g dir "memory.use_hierarchy"
  let usage ← getExistMemoryData g dir ""
  let swapUsage ← getExistMemoryData g dir "memsw"
  let kernelUsage ← getExistMemoryData g dir "kmem"
  .ok ⟨cache, usage, swapUsage, kernelUsage, value = 1, h⟩

/-- The limit in `pids.max`. -/
def pidsLimit (c : String) : Outcome ErrorKind UInt64 :=
  if contains c "max" then .ok 0 else parseU64 (trim c.toList)

def Pids.getStats (g : CgroupGuest) (dir : String) : Outcome ErrorKind PidsStats := do
  let current ← getParamU64 g dir "pids.current"
  let c ← g.readFile dir "pids.max"
  let limit ← pidsLimit c
  .ok ⟨current, limit⟩

/-- The loop of `get_blkio_stat`. -/
def blkioEntries : List (List Char) → Outcome ErrorKind (List BlkioStatsEntry)
  | [] => .ok []
  | l :: ls =>
    match l.splitOn ' ' with
    | dev :: op :: value :: _ => do
      let value ← parseU64 value
      match dev.splitOn ':' with
      | [major, minor] => do
        let major ← parseU64 major
        let minor ← parseU64 minor
        let entries ← blkioEntries ls
        .ok (⟨major, minor, String.ofList op, value⟩ :: entries)
      | _ => .err (.nix .EINVAL)
    | [total, _] =>
      if total.map Char.toLower = "total".toList then blkioEntries ls else .err (.nix .EINVAL)
    | _ => .err (.nix .EINVAL)

def getBlkioStat (g : CgroupGuest) (dir file : String) :
    Outcome ErrorKind (List BlkioStatsEntry) := do
  let text ← g.readFile dir file
  blkioEntries (lines text)

def Blkio.getStats (g : CgroupGuest) (dir : String) : Outcome ErrorKind BlkioStats := do
  let entry ← getBlkioStat g dir "blkio.io_serviced_recursive"
  if entry = [] then do
    let bytes ← getBlkioStat g dir "blkio.throttle.io_service_bytes"
    let serviced ← getBlkioStat g dir "blkio.throttle.io_serviced"
    .ok ⟨bytes, serviced, [], [], [], [], [], []⟩
  else do
    let sectors ← getBlkioStat g dir "blkio.sectors_recursive"
    let bytes ← getBlkioStat g dir "blkio.io_service_bytes_recursive"
    let serviced ← getBlkioStat g dir "blkio.io_serviced_recursive"
    let queued ← getBlkioStat g dir "blkio.io_queued_recursive"
    let serviceTime ← getBlkioStat g dir "blkio.io_service_time_recursive"
    let waitTime ← getBlkioStat g dir "blkio.io_wait_time_recursive"
    let merged ← getBlkioStat g dir "blkio.io_merged_recursive"
    let time ← getBlkioStat g dir "blkio.time_recursive"
    .ok ⟨bytes, serviced, queued, serviceTime, waitTime, merged, time, sectors⟩

def hugetlbStats (g : CgroupGuest) (dir : String) (h : Table String HugetlbStats) :
    List String → Outcome ErrorKind (Table String HugetlbStats)
  | [] => .ok h
  | pagesize :: sizes => do
    let usage ← getParamU64 g dir ("hugetlb." ++ pagesize ++ ".usage_in_bytes")
    let maxUsage ← getParamU64 g dir ("hugetlb." ++ pagesize ++ ".max_usage_in_bytes")
    let failcnt ← getParamU64 g dir ("hugetlb." ++ pagesize ++ ".failcnt")
    hugetlbStats g dir (h.insert pagesize ⟨usage, maxUsage, failcnt⟩) sizes

def HugeTLB.getStats (g : CgroupGuest) (dir : String) :
    Outcome ErrorKind (Table String HugetlbStats) := hugetlbStats g dir ∅ g.hugepageSizes

/-- The statistics of a controller, when the manager has its path. -/
def ifMounted (paths : Table String String) (name : String)
    (stats : String → Outcome ErrorKind α) : Outcome ErrorKind (Option α) :=
  match paths.lookup name with
  | none => .ok none
  | some dir => do
    let r ← stats dir
    .ok (some r)

/-- `get_stats` of a manager with these paths. -/
def managerStats (g : CgroupGuest) (paths : Table String String) :
    Outcome ErrorKind CgroupStats := do
  let cpuUsage ← ifMounted paths "cpuacct" (CpuAcct.getStats g)
  let throttlingData ← ifMounted paths "cpu" (Cpu.getStats g)
  let memoryStats ← ifMounted paths "memory" (Memory.getStats g)
  let pidsStats ← ifMounted paths "pids" (Pids.getStats g)
  let blkioStats ← ifMounted paths "blkio" (Blkio.getStats g)
  let hugetlbStats ← ifMounted paths "hugetlb" (HugeTLB.getStats g)
  .ok {
    cpuStats := if cpuUsage = none ∧ throttlingData = none then none
      else some ⟨cpuUsage, throttlingData⟩
    memoryStats := memoryStats
    pidsStats := pidsStats
    blkioStats := blkioStats
    hugetlbStats := hugetlbStats.getD ∅ }

/-- The counters that the caller unwraps, if it gets to see any. -/
def HasCounters (g : CgroupGuest) (dir file : String) (keys : List String) : Prop :=
  ∀ h, getParamKeyU64 g dir file = .ok h → ∀ k ∈ keys, (h.lookup k).isSome

/-- The files of these controllers have the counters that `get_stats` unwraps, where it gets
so far. -/
def Counted (g : CgroupGuest) (paths : Table String String) : Prop :=
  (∀ dir, paths.lookup "cpuacct" = some dir →
    HasCounters g dir "cpuacct.stat" ["user", "system"]) ∧
  ∀ cpu, ifMounted paths "cpuacct" (CpuAcct.getStats g) = .ok cpu →
    (∀ dir, paths.lookup "cpu" = some dir →
      HasCounters g dir "cpu.stat" ["nr_periods", "nr_throttled", "throttled_time"]) ∧
    ∀ throttling, ifMounted paths "cpu" (Cpu.getStats g) = .ok throttling →
      ∀ dir, paths.lookup "memory" = some dir → HasCounters g dir "memory.stat" ["cache"]

theorem CgroupGuest.readFile_ne_panic : g.readFile dir file ≠ .panic := by
  rw [CgroupGuest.readFile]
  split
  · nofun
  · nofun

theorem parseU64_go_ne_panic (n : Nat) (cs : List Char) : parseU64.go n cs ≠ .panic := by
  induction cs generalizing n with
  | nil => nofun
  | cons c cs ih =>
    unfold parseU64.go
    split
    · dsimp only
      split
      · exact ih _
      · nofun
    · nofun

theorem parseU64_ne_panic (cs : List Char) : parseU64 cs ≠ .panic := by
  unfold parseU64
  split
  · nofun
  · nofun
  · exact parseU64_go_ne_panic 0 _
  · exact parseU64_go_ne_panic 0 _

theorem keyU64_ne_panic (m : Table String UInt64) (ls : List (List Char)) :
    keyU64 m ls ≠ .panic := by
  induction ls generalizing m with
  | nil => nofun
  | cons l ls ih =>
    unfold keyU64
    split
    · exact Outcome.bind_ne_panic (parseU64_ne_panic _) fun _ => ih _
    · exact ih m

theorem getParamKeyU64_ne_panic : getParamKeyU64 g dir file ≠ .panic :=
  Outcome.bind_ne_panic CgroupGuest.readFile_ne_panic fun _ => keyU64_ne_panic _ _

theorem getParamU64_ne_panic : getParamU64 g dir file ≠ .panic :=
  Outcome.bind_ne_panic CgroupGuest.readFile_ne_panic fun _ => parseU64_ne_panic _

theorem percpuUsage_ne_panic (ns : List (List Char)) : percpuUsage ns ≠ .panic := by
  induction ns with
  | nil => nofun
  | cons n ns ih =>
    rw [percpuUsage]
    split
    · exact ih
    · apply Outcome.bind_ne_panic (parseU64_ne_panic _)
      intro _
      exact Outcome.bind_ne_panic ih fun _ => nofun

theorem getPercpuUsage_ne_panic : getPercpuUsage g dir file ≠ .panic :=
  Outcome.bind_ne_panic CgroupGuest.readFile_ne_panic fun _ => percpuUsage_ne_panic _

theorem getMemoryData_ne_panic (sub : String) : getMemoryData g dir sub ≠ .panic := by
  apply Outcome.bind_ne_panic getParamU64_ne_panic
  intro _
  apply Outcome.bind_ne_panic getParamU64_ne_panic
  intro _
  apply Outcome.bind_ne_panic getParamU64_ne_panic
  intro _
  exact Outcome.bind_ne_panic getParamU64_ne_panic fun _ => nofun

theorem getExistMemoryData_ne_panic (sub : String) : getExistMemoryData g dir sub ≠ .panic := by
  rw [getExistMemoryData]
  split
  · split <;> nofun
  · nofun
  · nofun
  · rename_i h
    exact absurd h (getMemoryData_ne_panic sub)

theorem blkioEntries_ne_panic (ls : List (List Char)) : blkioEntries ls ≠ .panic := by
  induction ls with
  | nil => nofun
  | cons l ls ih =>
    rw [blkioEntries]
    split
    · apply Outcome.bind_ne_panic (parseU64_ne_panic _)
      intro _
      split
      · apply Outcome.bind_ne_panic (parseU64_ne_panic _)
        intro _
        apply Outcome.bind_ne_panic (parseU64_ne_panic _)
        intro _
        exact Outcome.bind_ne_panic ih fun _ => nofun
      · nofun
    · split
      · exact ih
      · nofun
    · nofun

theorem getBlkioStat_ne_panic : getBlkioStat g dir file ≠ .panic :=
  Outcome.bind_ne_panic CgroupGuest.readFile_ne_panic fun _ => blkioEntries_ne_panic _

theorem hugetlbStats_ne_panic (h : Table String HugetlbStats) (sizes : List String) :
    hugetlbStats g dir h sizes ≠ .panic := by
  induction sizes generalizing h with
  | nil => nofun
  | cons pagesize sizes ih =>
    apply Outcome.bind_ne_panic getParamU64_ne_panic
    intro _
    apply Outcome.bind_ne_panic getParamU64_ne_panic
    intro _
    exact Outcome.bind_ne_panic getParamU64_ne_panic fun _ => ih _

theorem Pids.getStats_ne_panic : Pids.getStats g dir ≠ .panic := by
  apply Outcome.bind_ne_panic getParamU64_ne_panic
  intro _
  apply Outcome.bind_ne_panic CgroupGuest.readFile_ne_panic
  intro _
  refine Outcome.bind_ne_panic ?_ fun _ => nofun
  rw [pidsLimit]
  split
  · nofun
  · exact parseU64_ne_panic _

theorem Blkio.getStats_ne_panic : Blkio.getStats g dir ≠ .panic := by
  apply Outcome.bind_ne_panic getBlkioStat_ne_panic
  intro _
  split
  · apply Outcome.bind_ne_panic getBlkioStat_ne_panic
    intro _
    exact Outcome.bind_ne_panic getBlkioStat_ne_panic fun _ => nofun
  · apply Outcome.bind_ne_panic getBlkioStat_ne_panic
    intro _
    apply Outcome.bind_ne_panic getBlkioStat_ne_panic
    intro _
    apply Outcome.bind_ne_panic getBlkioStat_ne_panic
    intro _
    apply Outcome.bind_ne_panic getBlkioStat_ne_panic
    intro _
    apply Outcome.bind_ne_panic getBlkioStat_ne_panic
    intro _
    apply Outcome.bind_ne_panic getBlkioStat_ne_panic
    intro _
    apply Outcome.bind_ne_panic getBlkioStat_ne_panic
    intro _
    exact Outcome.bind_ne_panic getBlkioStat_ne_panic fun _ => nofun

theorem CpuAcct.getStats_ne_panic : CpuAcct.getStats g dir ≠ .panic ↔
    HasCounters g dir "cpuacct.stat" ["user", "system"] := by
  unfold CpuAcct.getStats HasCounters
  rw [Outcome.bind_ne_panic_iff, and_iff_right getParamKeyU64_ne_panic]
  refine forall_congr' fun h => imp_congr_right fun _ => ?_
  rw [Outcome.bind_ne_panic_iff, Outcome.ofUnwrap_ne_panic]
  cases hu : h.lookup "user" with
  | none => simp [hu]
  | some user =>
    have hrest (system : UInt64) : (do
        let totalUsage ← getParamU64 g dir "cpuacct.usage"
        let percpuUsage ← getPercpuUsage g dir "cpuacct.usage_percpu"
        .ok (⟨totalUsage, percpuUsage, g.perTick (system * nanoPerSecond),
          g.perTick (user * nanoPerSecond)⟩ : CpuUsage) : Outcome ErrorKind CpuUsage) ≠ .panic := by
      apply Outcome.bind_ne_panic getParamU64_ne_panic
      intro _
      exact Outcome.bind_ne_panic getPercpuUsage_ne_panic fun _ => nofun
    cases hs : h.lookup "system" with
    | none => simp [Outcome.ofUnwrap, hu, hs]
    | some system => simpa [Outcome.ofUnwrap, hu, hs] using hrest system

theorem Cpu.getStats_ne_panic : Cpu.getStats g dir ≠ .panic ↔
    HasCounters g dir "cpu.stat" ["nr_periods", "nr_throttled", "throttled_time"] := by
  unfold Cpu.getStats HasCounters
  rw [Outcome.bind_ne_panic_iff, and_iff_right getParamKeyU64_ne_panic]
  refine forall_congr' fun h => imp_congr_right fun _ => ?_
  cases hp : h.lookup "nr_periods" with
  | none => simp [Outcome.ofUnwrap, hp]
  | some periods =>
    cases ht : h.lookup "nr_throttled" with
    | none => simp [Outcome.ofUnwrap, hp, ht]
    | some throttled =>
      cases hd : h.lookup "throttled_time" with
      | none => simp [Outcome.ofUnwrap, hp, ht, hd]
      | some time => simp [Outcome.ofUnwrap, hp, ht, hd]

theorem Memory.getStats_ne_panic : Memory.getStats g dir ≠ .panic ↔
    HasCounters g dir "memory.stat" ["cache"] := by
  unfold Memory.getStats HasCounters
  rw [Outcome.bind_ne_panic_iff, and_iff_right getParamKeyU64_ne_panic]
  refine forall_congr' fun h => imp_congr_right fun _ => ?_
  rw [Outcome.bind_ne_panic_iff, Outcome.ofUnwrap_ne_panic, List.forall_mem_singleton]
  refine and_iff_left fun _ _ => ?_
  apply Outcome.bind_ne_panic getParamU64_ne_panic
  intro _
  apply Outcome.bind_ne_panic (getExistMemoryData_ne_panic _)
  intro _
  apply Outcome.bind_ne_panic (getExistMemoryData_ne_panic _)
  intro _
  exact Outcome.bind_ne_panic (getExistMemoryData_ne_panic _) fun _ => nofun

theorem ifMounted_ne_panic {paths : Table String String} {name : String}
    {stats : String → Outcome ErrorKind α} : ifMounted paths name stats ≠ .panic ↔
      ∀ dir, paths.lookup name = some dir → stats dir ≠ .panic := by
  rw [ifMounted]
  cases paths.lookup name with
  | none => exact ⟨fun _ => nofun, fun _ => nofun⟩
  | some dir =>
    dsimp only
    rw [Outcome.bind_ne_panic_iff]
    exact ⟨fun h d hd => Option.some.inj hd ▸ h.1, fun h => ⟨h dir rfl, fun _ _ => nofun⟩⟩

/-- `get_stats` unwinds only where it unwraps a counter. -/
theorem managerStats_ne_panic {paths : Table String String} :
    managerStats g paths ≠ .panic ↔ Counted g paths := by
  have hrest (cpu : Option CpuUsage) (throttling : Option ThrottlingData)
      (memory : Option MemoryStats) : (do
        let pidsStats ← ifMounted paths "pids" (Pids.getStats g)
        let blkioStats ← ifMounted paths "blkio" (Blkio.getStats g)
        let hugetlbStats ← ifMounted paths "hugetlb" (HugeTLB.getStats g)
        .ok (⟨if cpu = none ∧ throttling = none then none else some ⟨cpu, throttling⟩, memory,
          pidsStats, blkioStats, hugetlbStats.getD ∅⟩ : CgroupStats) :
        Outcome ErrorKind CgroupStats) ≠ .panic := by
    apply Outcome.bind_ne_panic (ifMounted_ne_panic.2 fun _ _ => Pids.getStats_ne_panic)
    intro _
    apply Outcome.bind_ne_panic (ifMounted_ne_panic.2 fun _ _ => Blkio.getStats_ne_panic)
    intro _
    refine Outcome.bind_ne_panic ?_ fun _ => nofun
    exact ifMounted_ne_panic.2 fun _ _ => hugetlbStats_ne_panic _ _
  unfold managerStats Counted
  rw [Outcome.bind_ne_panic_iff, ifMounted_ne_panic]
  simp only [CpuAcct.getStats_ne_panic]
  refine and_congr_right fun _ => forall_congr' fun cpu => imp_congr_right fun _ => ?_
  rw [Outcome.bind_ne_panic_iff, ifMounted_ne_panic]
  simp only [Cpu.getStats_ne_panic]
  refine and_congr_right fun _ => forall_congr' fun throttling => imp_congr_right fun _ => ?_
  rw [Outcome.bind_ne_panic_iff, ifMounted_ne_panic]
  simp only [Memory.getStats_ne_panic]
  exact and_iff_left fun memory _ => hrest cpu throttling memory

end KataAgent
