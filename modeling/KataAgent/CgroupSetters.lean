import KataAgent.CpusetChain
import KataAgent.DecimalText
import KataAgent.LinkLookup
import KataAgent.RootfsSetup

namespace KataAgent
open Fallible
set_option autoImplicit true

structure LinuxMemory where
  limit : Int
  reservation : Int
  swap : Int
  kernel : Int
  kernelTCP : Int
  swappiness : Nat
  disableOOMKiller : Bool

structure LinuxCPU where
  shares : Nat
  quota : Int
  period : Nat
  realtimeRuntime : Int
  realtimePeriod : Nat
  cpus : Chars
  mems : Chars

structure LinuxWeightDevice where
  major : Int
  minor : Int
  weight : Nat
  leafWeight : Nat

structure LinuxThrottleDevice where
  major : Int
  minor : Int
  rate : Nat

structure LinuxBlockIO where
  weight : Nat
  leafWeight : Nat
  weightDevice : List LinuxWeightDevice
  throttleReadBpsDevice : List LinuxThrottleDevice
  throttleWriteBpsDevice : List LinuxThrottleDevice
  throttleReadIOPSDevice : List LinuxThrottleDevice
  throttleWriteIOPSDevice : List LinuxThrottleDevice

structure LinuxPids where
  limit : Int

structure LinuxHugepageLimit where
  pagesize : Chars
  limit : Nat

structure LinuxInterfacePriority where
  name : Chars
  priority : Nat

structure LinuxNetwork where
  classID : Nat
  priorities : List LinuxInterfacePriority

/-- The `LinuxResources` message with all its fields. -/
structure CgroupResources extends LinuxResources where
  memory : Option LinuxMemory
  cpu : Option LinuxCPU
  pids : Option LinuxPids
  blockIO : Option LinuxBlockIO
  hugepageLimits : List LinuxHugepageLimit
  network : Option LinuxNetwork

/-- The files of the cgroups, by their paths. The kernel can refuse to have a file read or written,
and it decides what a file holds after a write. -/
structure ControlGuest where
  unreadable : Contents Chars → Chars → Option Errno
  refuses : Contents Chars → Chars → Chars → Option Errno
  stores : Contents Chars → Chars → Chars → Chars
  /-- `fs::create_dir_all`. -/
  makes : Chars → Contents Chars → Contents Chars
  strerror : Errno → String
  /-- How deep calls can be nested before the stack overflows. -/
  stack : Nat
  makes_keeps : ∀ dir s p v, s p = some v → makes dir s p = some v

abbrev Setting (α : Type) := Act (Contents Chars) ErrorKind α

/-- `EPERM` and `EACCES`. -/
def permissionDenied (e : Errno) : Bool := e = .other 1 || e = .other 13

def ERANGE : Errno := .other 34

/-- The errors of the system that `io::ErrorKind` has a name for. -/
def namedErrors : List Errno :=
  [.ENOENT, .EINTR, .EPIPE, .EINVAL, .ETIMEDOUT, .other 1, .other 11, .other 13, .other 17,
    .other 98, .other 99, .other 103, .other 104, .other 107, .other 111]

def kindOther (e : Errno) : Bool := !namedErrors.contains e

def noError (_ : Errno) : Bool := false

def invalidArgument (e : Errno) : Bool := e = .EINVAL || e = ENODEV || e = ERANGE

def missingDevice (e : Errno) : Bool := kindOther e && e = ENODEV

def intText (v : Int) : Chars :=
  if v < 0 then '-' :: decimalText v.natAbs else decimalText v.natAbs

/-- An `if` without an `else`. -/
def setIf (c : Prop) [Decidable c] (x : Setting Unit) : Setting Unit := if c then x else pure ()

section
variable (g : ControlGuest) (dir file : Chars)

/-- A write of which some errors are forgiven. -/
def ControlGuest.write (forgiven : Errno → Bool) (v : Chars) : Setting Unit := fun s =>
  match g.refuses s (filePath dir file) v with
  | some e => (if forgiven e then .ok () else .err (.io (g.strerror e)), s)
  | none =>
    (.ok (), Function.update s (filePath dir file) (some (g.stores s (filePath dir file) v)))

def writeFile (v : Chars) : Setting Unit := g.write dir file noError v

def writeNonzero (v : Int) : Setting Unit :=
  setIf (v ≠ 0) (writeFile g dir file (intText v))

def tryWriteNonzero (v : Int) : Setting Unit :=
  setIf (v ≠ 0) (g.write dir file permissionDenied (intText v))

def tryWriteFile (v : Chars) : Setting Unit :=
  g.write dir file invalidArgument v

def tryWrite (v : Chars) : Setting Unit :=
  g.write dir file (fun e => permissionDenied e || kindOther e) v

def writeBlkioDevice (v : Chars) : Setting Unit :=
  g.write dir file missingDevice v

def readFile (s : Contents Chars) : Except Errno Chars :=
  match g.unreadable s (filePath dir file), s (filePath dir file) with
  | some e, _ => .error e
  | none, none => .error .ENOENT
  | none, some v => .ok v

end

/-- `copy_parent` on a stack of the given depth. -/
def copyParentWithin (g : ControlGuest) (file : Chars) : Nat → Chars → Setting Unit
  | 0, _ => Act.unwind
  | depth + 1, dir =>
    match parentOf dir with
    | none => Act.fail (.errorCode "cannot copy file from parent")
    | some parent => do
      match ← Act.read (readFile g parent file) with
      | .ok v =>
        if trim v ≠ [] then writeFile g dir file v
        else do
          copyParentWithin g file depth parent
          copyParentWithin g file depth dir
      | .error e =>
        if e = .ENOENT then do
          copyParentWithin g file depth parent
          copyParentWithin g file depth dir
        else Act.fail (.io (g.strerror e))

def CPUSET_MEMS : Chars := "cpuset.mems".toList
def CPU_RT_PERIOD_US : Chars := "cpu.rt_period_us".toList
def CPU_RT_RUNTIME_US : Chars := "cpu.rt_runtime_us".toList
def CPU_SHARES : Chars := "cpu.shares".toList
def CPU_CFS_QUOTA_US : Chars := "cpu.cfs_quota_us".toList
def CPU_CFS_PERIOD_US : Chars := "cpu.cfs_period_us".toList
def DEVICES_ALLOW : Chars := "devices.allow".toList
def DEVICES_DENY : Chars := "devices.deny".toList
def MEMORY_LIMIT : Chars := "memory.limit_in_bytes".toList
def MEMORY_SOFT_LIMIT : Chars := "memory.soft_limit_in_bytes".toList
def MEMSW_LIMIT : Chars := "memory.memsw.limit_in_bytes".toList
def KMEM_LIMIT : Chars := "memory.kmem.limit_in_bytes".toList
def KMEM_TCP_LIMIT : Chars := "memory.kmem.tcp.limit_in_bytes".toList
def SWAPPINESS : Chars := "memory.swappiness".toList
def OOM_CONTROL : Chars := "memory.oom_control".toList
def PIDS_MAX : Chars := "pids.max".toList
def BLKIO_WEIGHT : Chars := "blkio.weight".toList
def BLKIO_LEAF_WEIGHT : Chars := "blkio.leaf_weight".toList
def BLKIO_WEIGHT_DEVICE : Chars := "blkio.weight_device".toList
def BLKIO_LEAF_WEIGHT_DEVICE : Chars := "blkio.leaf_weight_device".toList
def BLKIO_READ_BPS_DEVICE : Chars := "blkio.throttle.read_bps_device".toList
def BLKIO_WRITE_BPS_DEVICE : Chars := "blkio.throttle.write_bps_device".toList
def BLKIO_READ_IOPS_DEVICE : Chars := "blkio.throttle.read_iops_device".toList
def BLKIO_WRITE_IOPS_DEVICE : Chars := "blkio.throttle.write_iops_device".toList
def NET_CLS_CLASSID : Chars := "net_cls.classid".toList
def NET_PRIO_IFPRIOMAP : Chars := "net_prio.ifpriomap".toList

def WILDCARD : Int := -1

def allowedDevice (type : String) (major minor : Int) (access : String) : LinuxDeviceCgroup :=
  ⟨true, type, major, minor, access⟩

def DEFAULT_ALLOWED_DEVICES : List LinuxDeviceCgroup :=
  [allowedDevice "c" WILDCARD WILDCARD "m", allowedDevice "b" WILDCARD WILDCARD "m",
    allowedDevice "c" 5 1 "rwm", allowedDevice "c" 136 WILDCARD "rwm", allowedDevice "c" 5 2 "rwm",
    allowedDevice "c" 10 200 "rwm"]

def deviceNumberText (n : Int) : Chars := if n = WILDCARD then ['*'] else intText n

/-- The rule of a device, as the file of the devices controller takes it. -/
def deviceRule (d : LinuxDeviceCgroup) : Chars :=
  (if d.type = "" then ['a'] else d.type.toList) ++ ' ' :: (deviceNumberText d.major ++ ':' ::
    (deviceNumberText d.minor ++ ' ' :: d.access.toList))

def weight (d : LinuxWeightDevice) : Chars × Chars :=
  (intText d.major ++ ':' :: (intText d.minor ++ ' ' :: decimalText d.weight),
    intText d.major ++ ':' :: (intText d.minor ++ ' ' :: decimalText d.leafWeight))

def rate (d : LinuxThrottleDevice) : Chars :=
  intText d.major ++ ':' :: (intText d.minor ++ ' ' :: decimalText d.rate)

def hugepageFile (l : LinuxHugepageLimit) : Chars :=
  "hugetlb.".toList ++ (l.pagesize ++ ".limit_in_bytes".toList)

section
variable (g : ControlGuest) (dir : Chars) (r : CgroupResources) (update : Bool)

/-- The two writes of `CpuSet::set`. -/
def setCpus (cpus mems : Chars) : Setting Unit := do
  setIf (cpus ≠ []) (tryWriteFile g dir CPUSET_CPUS cpus)
  setIf (mems ≠ []) (tryWriteFile g dir CPUSET_MEMS mems)

def CpuSet.set : Setting Unit := do
  setIf (update = false) do
    copyParentWithin g CPUSET_CPUS g.stack dir
    copyParentWithin g CPUSET_MEMS g.stack dir
  setCpus g dir (r.cpu.elim [] LinuxCPU.cpus) (r.cpu.elim [] LinuxCPU.mems)

def Cpu.set : Setting Unit :=
  match r.cpu with
  | none => pure ()
  | some cpu => do
    tryWriteNonzero g dir CPU_RT_PERIOD_US cpu.realtimePeriod
    tryWriteNonzero g dir CPU_RT_RUNTIME_US cpu.realtimeRuntime
    writeNonzero g dir CPU_SHARES cpu.shares
    writeNonzero g dir CPU_CFS_QUOTA_US cpu.quota
    writeNonzero g dir CPU_CFS_PERIOD_US cpu.period

def writeDevice (d : LinuxDeviceCgroup) : Setting Unit :=
  writeFile g dir (if d.allow then DEVICES_ALLOW else DEVICES_DENY) (deviceRule d)

def Devices.set : Setting Unit := do
  r.devices.forM fun d => writeDevice g dir d
  DEFAULT_DEVICES.forM fun d => writeDevice g dir ⟨true, d.type, d.major, d.minor, "rwm"⟩
  DEFAULT_ALLOWED_DEVICES.forM fun d => writeDevice g dir d

def Memory.set : Setting Unit :=
  match r.memory with
  | none => pure ()
  | some memory => do
    setIf (update = false) do
      tryWrite g dir KMEM_LIMIT (intText 1)
      tryWrite g dir KMEM_LIMIT (intText (-1))
    writeNonzero g dir MEMORY_LIMIT memory.limit
    writeNonzero g dir MEMORY_SOFT_LIMIT memory.reservation
    tryWriteNonzero g dir MEMSW_LIMIT memory.swap
    tryWriteNonzero g dir KMEM_LIMIT memory.kernel
    writeNonzero g dir KMEM_TCP_LIMIT memory.kernelTCP
    setIf (memory.swappiness ≤ 100) (writeFile g dir SWAPPINESS (decimalText memory.swappiness))
    setIf (memory.disableOOMKiller = true) (writeFile g dir OOM_CONTROL ['1'])

def Pids.set : Setting Unit :=
  match r.pids with
  | none => pure ()
  | some pids =>
    writeFile g dir PIDS_MAX (if pids.limit > 0 then intText pids.limit else "max".toList)

def Blkio.set : Setting Unit :=
  match r.blockIO with
  | none => pure ()
  | some blkio => do
    writeNonzero g dir BLKIO_WEIGHT blkio.weight
    writeNonzero g dir BLKIO_LEAF_WEIGHT blkio.leafWeight
    blkio.weightDevice.forM fun d => do
      writeBlkioDevice g dir BLKIO_WEIGHT_DEVICE (weight d).1
      writeBlkioDevice g dir BLKIO_LEAF_WEIGHT_DEVICE (weight d).2
    blkio.throttleReadBpsDevice.forM fun d => writeBlkioDevice g dir BLKIO_READ_BPS_DEVICE (rate d)
    blkio.throttleWriteBpsDevice.forM fun d =>
      writeBlkioDevice g dir BLKIO_WRITE_BPS_DEVICE (rate d)
    blkio.throttleReadIOPSDevice.forM fun d =>
      writeBlkioDevice g dir BLKIO_READ_IOPS_DEVICE (rate d)
    blkio.throttleWriteIOPSDevice.forM fun d =>
      writeBlkioDevice g dir BLKIO_WRITE_IOPS_DEVICE (rate d)

def HugeTLB.set : Setting Unit :=
  r.hugepageLimits.forM fun l => writeFile g dir (hugepageFile l) (decimalText l.limit)

def NetCls.set : Setting Unit :=
  match r.network with
  | none => pure ()
  | some network => writeNonzero g dir NET_CLS_CLASSID network.classID

def NetPrio.set : Setting Unit :=
  match r.network with
  | none => pure ()
  | some network => network.priorities.forM fun p =>
    tryWriteFile g dir NET_PRIO_IFPRIOMAP (p.name ++ ' ' :: decimalText p.priority)

end

inductive Subsystem where
  | CpuSet
  | Cpu
  | Devices
  | Memory
  | CpuAcct
  | Pids
  | Blkio
  | HugeTLB
  | NetCls
  | NetPrio
  | PerfEvent
  | Freezer
  | Named
  deriving DecidableEq

/-- The names of the match in `get_subsystem`. -/
def subsystems : List (Chars × Subsystem) :=
  [("cpuset".toList, .CpuSet), ("cpu".toList, .Cpu), ("devices".toList, .Devices),
    ("memory".toList, .Memory), ("cpuacct".toList, .CpuAcct), ("pids".toList, .Pids),
    ("blkio".toList, .Blkio), ("hugetlb".toList, .HugeTLB), ("net_cls".toList, .NetCls),
    ("net_prio".toList, .NetPrio), ("perf_event".toList, .PerfEvent), ("freezer".toList, .Freezer),
    ("name=systemd".toList, .Named)]

def getSubsystem (name : Chars) : Outcome ErrorKind Subsystem :=
  .ofOption (.nix .EINVAL) (subsystems.lookup name)

theorem mem_of_getSubsystem {name : Chars} {sub : Subsystem} (h : getSubsystem name = .ok sub) :
    (name, sub) ∈ subsystems := by
  obtain ⟨l₁, l₂, hl, -⟩ := List.lookup_eq_some_iff.1 (Outcome.ofOption_eq_ok.1 h)
  rw [hl]
  exact List.mem_append_right _ List.mem_cons_self

def Subsystem.set (g : ControlGuest) (dir : Chars) (r : CgroupResources) (update : Bool) :
    Subsystem → Setting Unit
  | .CpuSet => CpuSet.set g dir r update
  | .Cpu => Cpu.set g dir r
  | .Devices => Devices.set g dir r
  | .Memory => Memory.set g dir r update
  | .Pids => Pids.set g dir r
  | .Blkio => Blkio.set g dir r
  | .HugeTLB => HugeTLB.set g dir r
  | .NetCls => NetCls.set g dir r
  | .NetPrio => NetPrio.set g dir r
  | .CpuAcct | .PerfEvent | .Freezer | .Named => pure ()

/-- An order in which a hash map can be iterated. -/
structure Visits (m : Table Chars Chars) (keys : List Chars) : Prop where
  nodup : keys.Nodup
  mem : ∀ k, k ∈ keys ↔ k ∈ m

/-- The body of the loop of `Manager::set`. -/
def Manager.setKey (g : ControlGuest) (m : Manager) (r : CgroupResources) (update : Bool)
    (key : Chars) : Setting Unit :=
  match m.paths.lookup key with
  | none => pure ()
  | some dir => do
    Act.modify (g.makes dir)
    let sub ← Act.lift (getSubsystem key)
    sub.set g dir r update

/-- `Manager::set`, for an order of the keys. -/
def Manager.set (g : ControlGuest) (m : Manager) (r : CgroupResources) (update : Bool)
    (keys : List Chars) : Setting Unit := keys.forM (m.setKey g r update)

theorem Manager.setKey_of_lookup {g : ControlGuest} {m : Manager} {r : CgroupResources}
    {update : Bool} {key dir : Chars} (h : m.paths.lookup key = some dir) :
    m.setKey g r update key = (do
      Act.modify (g.makes dir)
      let sub ← Act.lift (getSubsystem key)
      sub.set g dir r update) := by
  rw [Manager.setKey, h]

theorem Manager.setKey_of_none {g : ControlGuest} {m : Manager} {r : CgroupResources}
    {update : Bool} {key : Chars} (h : m.paths.lookup key = none) :
    m.setKey g r update key = pure () := by
  rw [Manager.setKey, h]

end KataAgent
