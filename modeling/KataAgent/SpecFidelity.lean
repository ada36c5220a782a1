import KataAgent.ConfigJson
import KataAgent.Copies
import KataAgent.GrpcToOci

namespace KataAgent
set_option autoImplicit true
open Copies

/-- `as i32`. -/
def toI32 : Copy Int64 Int32 :=
  .integer Int64.toInt Oci.toInt_injective Int32.toInt (-2147483648) 2147483648

/-- `as u16`. -/
def toU16 : Copy UInt32 UInt16 :=
  .integer (fun n => n.toNat) Oci.uint32_injective (fun n => n.toNat) 0 65536

/-- `as u32`. -/
def toU32 : Copy UInt64 UInt32 :=
  .integer (fun n => n.toNat) Oci.uint64_injective (fun n => n.toNat) 0 4294967296

/-- `as i64`. -/
def toI64 : Copy UInt64 Int64 :=
  .integer (fun n => n.toNat) Oci.uint64_injective Int64.toInt 0 9223372036854775808

@[simp]
theorem kept_toInt32 (n : Int64) : toI32.Kept n n.toInt32 := by
  intro h
  rw [Int64.toInt_toInt32]
  exact Int.bmod_eq_of_le (by omega) (by omega)

@[simp]
theorem kept_toUInt16 (n : UInt32) : toU16.Kept n n.toUInt16 := by
  intro ⟨_, h⟩
  dsimp only at h ⊢
  rw [UInt32.toNat_toUInt16, Nat.mod_eq_of_lt (by omega)]

@[simp]
theorem kept_toUInt32 (n : UInt64) : toU32.Kept n n.toUInt32 := by
  intro ⟨_, h⟩
  dsimp only at h ⊢
  rw [UInt64.toNat_toUInt32, Nat.mod_eq_of_lt (by omega)]

@[simp]
theorem kept_toInt64 (n : UInt64) : toI64.Kept n n.toInt64 := by
  intro ⟨_, h⟩
  dsimp only at h ⊢
  calc n.toInt64.toInt = (n.toNat : Int).bmod (2 ^ 64) := n.toBitVec.toInt_eq_toNat_bmod
    _ = n.toNat := Int.bmod_eq_of_le (by omega) (by omega)

def boxCopy : Copy Grpc.Box Oci.Box :=
  .record
    [ ⟨(·.height), (·.height), .same⟩,
      ⟨(·.width), (·.width), .same⟩ ]

def userCopy : Copy Grpc.User Oci.User :=
  .record
    [ ⟨(·.uid), (·.uid), .same⟩,
      ⟨(·.gid), (·.gid), .same⟩,
      ⟨(·.additionalGids), (·.additionalGids), .same⟩,
      ⟨(·.username), (·.username), .same⟩ ]

def capabilitiesCopy : Copy Grpc.LinuxCapabilities Oci.LinuxCapabilities :=
  .record
    [ ⟨(·.bounding), (·.bounding), .same⟩,
      ⟨(·.effective), (·.effective), .same⟩,
      ⟨(·.inheritable), (·.inheritable), .same⟩,
      ⟨(·.permitted), (·.permitted), .same⟩,
      ⟨(·.ambient), (·.ambient), .same⟩ ]

def rlimitCopy : Copy Grpc.POSIXRlimit Oci.POSIXRlimit :=
  .record
    [ ⟨(·.type), (·.type), .same⟩,
      ⟨(·.hard), (·.hard), .same⟩,
      ⟨(·.soft), (·.soft), .same⟩ ]

/-- The field `user` of the copy is not optional. -/
def processCopy : Copy Grpc.Process Oci.Process :=
  .record
    [ ⟨(·.terminal), (·.terminal), .same⟩,
      ⟨(·.consoleSize), (·.consoleSize), boxCopy.option⟩,
      ⟨(·.user), (·.user), userCopy.required⟩,
      ⟨(·.args), (·.args), .same⟩,
      ⟨(·.env), (·.env), .same⟩,
      ⟨(·.cwd), (·.cwd), .same⟩,
      ⟨(·.capabilities), (·.capabilities), capabilitiesCopy.option⟩,
      ⟨(·.rlimits), (·.rlimits), rlimitCopy.list⟩,
      ⟨(·.noNewPrivileges), (·.noNewPrivileges), .same⟩,
      ⟨(·.apparmorProfile), (·.apparmorProfile), .same⟩,
      ⟨(·.oomScoreAdj), (·.oomScoreAdj), toI32.written⟩,
      ⟨(·.selinuxLabel), (·.selinuxLabel), .same⟩ ]

def rootCopy : Copy Grpc.Root Oci.Root :=
  .record
    [ ⟨(·.path), (·.path), .same⟩,
      ⟨(·.readonly), (·.readonly), .same⟩ ]

def mountCopy : Copy Grpc.Mount Oci.Mount :=
  .record
    [ ⟨(·.destination), (·.destination), .same⟩,
      ⟨(·.source), (·.source), .same⟩,
      ⟨(·.fieldType), (·.type), .same⟩,
      ⟨(·.options), (·.options), .same⟩ ]

def hookCopy : Copy Grpc.Hook Oci.Hook :=
  .record
    [ ⟨(·.path), (·.path), .same⟩,
      ⟨(·.args), (·.args), .same⟩,
      ⟨(·.env), (·.env), .same⟩,
      ⟨(·.timeout), (·.timeout), toI32.written⟩ ]

def hooksCopy : Copy Grpc.Hooks Oci.Hooks :=
  .record
    [ ⟨(·.prestart), (·.prestart), hookCopy.list⟩,
      ⟨(·.poststart), (·.poststart), hookCopy.list⟩,
      ⟨(·.poststop), (·.poststop), hookCopy.list⟩ ]

def idmapCopy : Copy Grpc.LinuxIDMapping Oci.LinuxIDMapping :=
  .record
    [ ⟨(·.hostID), (·.hostId), .same⟩,
      ⟨(·.containerID), (·.containerId), .same⟩,
      ⟨(·.size), (·.size), .same⟩ ]

def throttleDeviceCopy : Copy Grpc.LinuxThrottleDevice Oci.LinuxThrottleDevice :=
  .record
    [ ⟨(·.major), (·.blk.major), .same⟩,
      ⟨(·.minor), (·.blk.minor), .same⟩,
      ⟨(·.rate), (·.rate), .same⟩ ]

def weightDeviceCopy : Copy Grpc.LinuxWeightDevice Oci.LinuxWeightDevice :=
  .record
    [ ⟨(·.major), (·.blk.major), .same⟩,
      ⟨(·.minor), (·.blk.minor), .same⟩,
      ⟨(·.weight), (·.weight), toU16.written⟩,
      ⟨(·.leafWeight), (·.leafWeight), toU16.written⟩ ]

def blockioCopy : Copy Grpc.LinuxBlockIO Oci.LinuxBlockIO :=
  .record
    [ ⟨(·.weight), (·.weight), toU16.written⟩,
      ⟨(·.leafWeight), (·.leafWeight), toU16.written⟩,
      ⟨(·.weightDevice), (·.weightDevice), weightDeviceCopy.list⟩,
      ⟨(·.throttleReadBpsDevice), (·.throttleReadBpsDevice), throttleDeviceCopy.list⟩,
      ⟨(·.throttleWriteBpsDevice), (·.throttleWriteBpsDevice), throttleDeviceCopy.list⟩,
      ⟨(·.throttleReadIOPSDevice), (·.throttleReadIopsDevice), throttleDeviceCopy.list⟩,
      ⟨(·.throttleWriteIOPSDevice), (·.throttleWriteIopsDevice), throttleDeviceCopy.list⟩ ]

def deviceCgroupCopy : Copy Grpc.LinuxDeviceCgroup Oci.LinuxDeviceCgroup :=
  .record
    [ ⟨(·.allow), (·.allow), .same⟩,
      ⟨(·.type), (·.type), .same⟩,
      ⟨(·.major), (·.major), .wildcard (-1)⟩,
      ⟨(·.minor), (·.minor), .wildcard (-1)⟩,
      ⟨(·.access), (·.access), .same⟩ ]

def memoryCopy : Copy Grpc.LinuxMemory Oci.LinuxMemory :=
  .record
    [ ⟨(·.limit), (·.limit), Copy.same.written⟩,
      ⟨(·.reservation), (·.reservation), Copy.same.written⟩,
      ⟨(·.swap), (·.swap), Copy.same.written⟩,
      ⟨(·.kernel), (·.kernel), Copy.same.written⟩,
      ⟨(·.kernelTCP), (·.kernelTcp), Copy.same.written⟩,
      ⟨(·.swappiness), (·.swapiness), toI64.written⟩,
      ⟨(·.disableOOMKiller), (·.disableOomKiller), Copy.same.written⟩ ]

def cpuCopy : Copy Grpc.LinuxCPU Oci.LinuxCPU :=
  .record
    [ ⟨(·.shares), (·.shares), Copy.same.written⟩,
      ⟨(·.quota), (·.quota), Copy.same.written⟩,
      ⟨(·.period), (·.period), Copy.same.written⟩,
      ⟨(·.realtimeRuntime), (·.realtimeRuntime), Copy.same.written⟩,
      ⟨(·.realtimePeriod), (·.realtimePeriod), Copy.same.written⟩,
      ⟨(·.cpus), (·.cpus), .same⟩,
      ⟨(·.mems), (·.mems), .same⟩ ]

def pidsCopy : Copy Grpc.LinuxPids Oci.LinuxPids :=
  .record
    [ ⟨(·.limit), (·.limit), .same⟩ ]

def hugepageLimitCopy : Copy Grpc.LinuxHugepageLimit Oci.LinuxHugepageLimit :=
  .record
    [ ⟨(·.pagesize), (·.pageSize), .same⟩,
      ⟨(·.limit), (·.limit), .same⟩ ]

def interfacePriorityCopy : Copy Grpc.LinuxInterfacePriority Oci.LinuxInterfacePriority :=
  .record
    [ ⟨(·.name), (·.name), .same⟩,
      ⟨(·.priority), (·.priority), .same⟩ ]

def networkCopy : Copy Grpc.LinuxNetwork Oci.LinuxNetwork :=
  .record
    [ ⟨(·.classID), (·.classId), Copy.same.written⟩,
      ⟨(·.priorities), (·.priorities), interfacePriorityCopy.list⟩ ]

def resourcesCopy : Copy Grpc.LinuxResources Oci.LinuxResources :=
  .record
    [ ⟨(·.devices), (·.devices), deviceCgroupCopy.list⟩,
      ⟨(·.memory), (·.memory), memoryCopy.option⟩,
      ⟨(·.cpu), (·.cpu), cpuCopy.option⟩,
      ⟨(·.pids), (·.pids), pidsCopy.option⟩,
      ⟨fun res => res.blockIO, (·.blockIo), blockioCopy.option⟩,
      ⟨(·.hugepageLimits), (·.hugepageLimits), hugepageLimitCopy.list⟩,
      ⟨(·.network), (·.network), networkCopy.option⟩ ]

def seccompArgCopy : Copy Grpc.LinuxSeccompArg Oci.LinuxSeccompArg :=
  .record
    [ ⟨(·.index), (·.index), toU32⟩,
      ⟨(·.value), (·.value), .same⟩,
      ⟨(·.valueTwo), (·.valueTwo), .same⟩,
      ⟨(·.op), (·.op), .same⟩ ]

def syscallCopy : Copy Grpc.LinuxSyscall Oci.LinuxSyscall :=
  .record
    [ ⟨(·.names), (·.names), .same⟩,
      ⟨(·.action), (·.action), .same⟩,
      ⟨(·.args), (·.args), seccompArgCopy.list⟩ ]

def seccompCopy : Copy Grpc.LinuxSeccomp Oci.LinuxSeccomp :=
  .record
    [ ⟨(·.defaultAction), (·.defaultAction), .same⟩,
      ⟨(·.architectures), (·.architectures), .same⟩,
      ⟨(·.syscalls), (·.syscalls), syscallCopy.list⟩ ]

def namespaceCopy : Copy LinuxNamespace Oci.LinuxNamespace :=
  .record
    [ ⟨(·.type), (·.type), .same⟩,
      ⟨(·.path), (·.path), .same⟩ ]

def deviceCopy : Copy Grpc.LinuxDevice Oci.LinuxDevice :=
  .record
    [ ⟨(·.path), (·.path), .same⟩,
      ⟨(·.type), (·.type), .same⟩,
      ⟨(·.major), (·.major), .same⟩,
      ⟨(·.minor), (·.minor), .same⟩,
      ⟨(·.fileMode), (·.fileMode), Copy.same.written⟩,
      ⟨(·.uid), (·.uid), Copy.same.written⟩,
      ⟨(·.gid), (·.gid), Copy.same.written⟩ ]

def intelRdtCopy : Copy Grpc.LinuxIntelRdt Oci.LinuxIntelRdt :=
  .record
    [ ⟨(·.l3CacheSchema), (·.l3CacheSchema), .same⟩ ]

def linuxCopy : Copy Grpc.Linux Oci.Linux :=
  .record
    [ ⟨(·.uidMappings), (·.uidMappings), idmapCopy.list⟩,
      ⟨(·.gidMappings), (·.gidMappings), idmapCopy.list⟩,
      ⟨(·.sysctl), (·.sysctl), .same⟩,
      ⟨(·.resources), (·.resources), resourcesCopy.option⟩,
      ⟨(·.cgroupsPath), (·.cgroupsPath), .same⟩,
      ⟨(·.namespaces), (·.namespaces), namespaceCopy.list⟩,
      ⟨(·.devices), (·.devices), deviceCopy.list⟩,
      ⟨(·.seccomp), (·.seccomp), seccompCopy.option⟩,
      ⟨(·.rootfsPropagation), (·.rootfsPropagation), .same⟩,
      ⟨(·.maskedPaths), (·.maskedPaths), .same⟩,
      ⟨(·.readonlyPaths), (·.readonlyPaths), .same⟩,
      ⟨(·.mountLabel), (·.mountLabel), .same⟩,
      ⟨(·.intelRdt), (·.intelRdt), intelRdtCopy.option⟩ ]

def specCopy : Copy Grpc.Spec Oci.Spec :=
  .record
    [ ⟨(·.version), (·.version), .same⟩,
      ⟨(·.process), (·.process), processCopy.option⟩,
      ⟨(·.root), (·.root), rootCopy.option⟩,
      ⟨(·.hostname), (·.hostname), .same⟩,
      ⟨(·.mounts), (·.mounts), mountCopy.list⟩,
      ⟨(·.hooks), (·.hooks), hooksCopy.option⟩,
      ⟨(·.annotations), (·.annotations), .same⟩,
      ⟨(·.linux), (·.linux), linuxCopy.option⟩,
      ⟨(·.solaris), (·.solaris), .absent⟩,
      ⟨(·.windows), (·.windows), .absent⟩ ]

def Grpc.User.zeroed : Grpc.User where
  uid := 0
  gid := 0
  additionalGids := []
  username := ""

/-- What is written of a process always has a user. -/
def Grpc.Process.withUser (p : Grpc.Process) : Grpc.Process :=
  { p with user := some (p.user.getD .zeroed) }

/-- What is written of a spec is about Linux. -/
def Grpc.Spec.onLinux (g : Grpc.Spec) : Grpc.Spec :=
  { g with
    process := g.process.map Grpc.Process.withUser
    solaris := none
    windows := none }

theorem processGrpcToOci_withUser (p : Grpc.Process) :
    processGrpcToOci p.withUser = processGrpcToOci p := by
  cases hu : p.user with
  | none =>
    simp [processGrpcToOci, Grpc.Process.withUser, hu, Oci.User.zeroed, Grpc.User.zeroed]
  | some u => simp [processGrpcToOci, Grpc.Process.withUser, hu]

theorem grpcToOci_onLinux (g : Grpc.Spec) : grpcToOci g.onLinux = grpcToOci g := by
  simp only [grpcToOci, Grpc.Spec.onLinux, Option.map_map]
  congr 2
  funext p
  exact processGrpcToOci_withUser p

attribute [local simp] KeptAll FitsAll

theorem kept_processGrpcToOci {p : Grpc.Process} :
    processCopy.Kept p.withUser (processGrpcToOci p.withUser) := by
  simp [processCopy, processGrpcToOci, Grpc.Process.withUser, boxCopy, userCopy,
    capabilitiesCopy, rlimitCopy]

theorem kept_hookGrpcToOci (h : List Grpc.Hook) : hookCopy.list.Kept h (hookGrpcToOci h) := by
  simp [hookCopy, hookGrpcToOci]

theorem kept_hooksGrpcToOci (h : Grpc.Hooks) : hooksCopy.Kept h (hooksGrpcToOci h) := by
  have hhooks := kept_hookGrpcToOci
  simp [hooksCopy, hooksGrpcToOci, hhooks]

theorem kept_throttleDevicesGrpcToOci (tds : List Grpc.LinuxThrottleDevice) :
    throttleDeviceCopy.list.Kept tds (throttleDevicesGrpcToOci tds) := by
  simp [throttleDeviceCopy, throttleDevicesGrpcToOci]

theorem kept_weightDevicesGrpcToOci (wds : List Grpc.LinuxWeightDevice) :
    weightDeviceCopy.list.Kept wds (weightDevicesGrpcToOci wds) := by
  simp [weightDeviceCopy, weightDevicesGrpcToOci]

theorem kept_blockioGrpcToOci (blk : Grpc.LinuxBlockIO) :
    blockioCopy.Kept blk (blockioGrpcToOci blk) := by
  have hthrottle := kept_throttleDevicesGrpcToOci
  have hweight := kept_weightDevicesGrpcToOci
  simp [blockioCopy, blockioGrpcToOci, hthrottle, hweight]

theorem kept_resourcesGrpcToOci (res : Grpc.LinuxResources) :
    resourcesCopy.Kept res (resourcesGrpcToOci res) := by
  have hblockio := kept_blockioGrpcToOci
  simp [resourcesCopy, resourcesGrpcToOci, hblockio, deviceCgroupCopy, memoryCopy, cpuCopy,
    pidsCopy, hugepageLimitCopy, networkCopy, interfacePriorityCopy]

theorem kept_seccompGrpcToOci (sec : Grpc.LinuxSeccomp) :
    seccompCopy.Kept sec (seccompGrpcToOci sec) := by
  simp [seccompCopy, seccompGrpcToOci, syscallCopy, seccompArgCopy]

theorem kept_idmapGrpcToOci (im : Grpc.LinuxIDMapping) :
    idmapCopy.Kept im (idmapGrpcToOci im) := by
  simp [idmapCopy, idmapGrpcToOci]

theorem kept_idmapsGrpcToOci (ims : List Grpc.LinuxIDMapping) :
    idmapCopy.list.Kept ims (idmapsGrpcToOci ims) :=
  Copy.kept_list kept_idmapGrpcToOci ims

theorem kept_linuxGrpcToOci (l : Grpc.Linux) : linuxCopy.Kept l (linuxGrpcToOci l) := by
  have hresources := kept_resourcesGrpcToOci
  have hseccomp := kept_seccompGrpcToOci
  have hidmaps := kept_idmapsGrpcToOci
  simp [linuxCopy, linuxGrpcToOci, hresources, hseccomp, hidmaps, namespaceCopy,
    deviceCopy, intelRdtCopy]

theorem kept_process (o : Option Grpc.Process) :
    processCopy.option.Kept (o.map Grpc.Process.withUser) (o.map processGrpcToOci) := by
  cases o with
  | none => exact .none
  | some p =>
    apply Option.Rel.some
    rw [← processGrpcToOci_withUser]
    exact kept_processGrpcToOci

theorem kept_rootGrpcToOci (root : Grpc.Root) : rootCopy.Kept root (rootGrpcToOci root) := by
  simp [rootCopy, rootGrpcToOci]

theorem kept_mountGrpcToOci (m : Grpc.Mount) : mountCopy.Kept m (mountGrpcToOci m) := by
  simp [mountCopy, mountGrpcToOci]

theorem kept_grpcToOci (g : Grpc.Spec) : specCopy.Kept g.onLinux (grpcToOci g) := by
  have hprocess := kept_process
  have hroot := kept_rootGrpcToOci
  have hmount := kept_mountGrpcToOci
  have hhooks := kept_hooksGrpcToOci
  have hlinux := kept_linuxGrpcToOci
  simp [specCopy, grpcToOci, Grpc.Spec.onLinux, hprocess, hroot, hmount, hhooks, hlinux]

/-- What is asked about Linux is in `config.json`, each integer the same integer; specs whose
integers fit are told apart by it. -/
theorem grpcToOci_faithful :
    (∀ g, specCopy.Kept g.onLinux (grpcToOci g)) ∧
      ∀ g g', specCopy.Fits g.onLinux → specCopy.Fits g'.onLinux →
        (grpcToOci g).configJson = (grpcToOci g').configJson → g.onLinux = g'.onLinux := by
  refine ⟨kept_grpcToOci, fun g g' fits fits' hjson => ?_⟩
  have hkept : specCopy.Kept g'.onLinux (grpcToOci g) := by
    rw [Oci.configJson_inj.1 hjson]
    exact kept_grpcToOci g'
  exact specCopy.unique (kept_grpcToOci g) hkept fits fits'

def hookSpec (timeout : Int64) : Grpc.Spec :=
  { Grpc.Spec.empty with
    hooks := some
      { prestart := [{ path := "/bin/hook", args := [], env := [], timeout }]
        poststart := []
        poststop := [] } }

theorem hookSpec_fits (h : -2147483648 ≤ timeout.toInt ∧ timeout.toInt < 2147483648) :
    specCopy.Fits (hookSpec timeout).onLinux := by
  simpa [specCopy, Copy.record, Copy.option, Copy.list, Copy.same, Copy.absent, hooksCopy,
    hookCopy, Copy.written, toI32, Copy.integer, hookSpec, Grpc.Spec.empty, Grpc.Spec.onLinux]
    using h

theorem grpcToOci_timeout :
    (grpcToOci (hookSpec 5)).configJson ≠ (grpcToOci (hookSpec (-5))).configJson := by
  intro hjson
  have heq := grpcToOci_faithful.2 (hookSpec 5) (hookSpec (-5)) (hookSpec_fits (by decide))
    (hookSpec_fits (by decide)) hjson
  exact absurd heq (by decide)

def userSpec (user : Option Grpc.User) : Grpc.Spec :=
  { Grpc.Spec.empty with
    process := some
      { terminal := false
        consoleSize := none
        user
        args := []
        env := []
        cwd := ""
        capabilities := none
        rlimits := []
        noNewPrivileges := false
        apparmorProfile := ""
        oomScoreAdj := 0
        selinuxLabel := "" } }

theorem grpcToOci_loses :
    ¬ (∀ g, (grpcToOci g).solaris.isSome = g.solaris.isSome) ∧
      ¬ (∀ g, (grpcToOci g).windows.isSome = g.windows.isSome) ∧
      ¬ (∀ g g', (grpcToOci g).configJson = (grpcToOci g').configJson →
        g.process = g'.process) ∧
      ¬ (∀ g g', (grpcToOci g).configJson = (grpcToOci g').configJson → g.hooks = g'.hooks) := by
  refine ⟨fun h => ?_, fun h => ?_, fun h => ?_, fun h => ?_⟩
  · exact absurd (h { Grpc.Spec.empty with solaris := some ⟨""⟩ }) (by decide)
  · exact absurd (h { Grpc.Spec.empty with windows := some ⟨""⟩ }) (by decide)
  · exact absurd (h (userSpec none) (userSpec (some .zeroed)) rfl) (by decide)
  · exact absurd (h (hookSpec 4294967301) (hookSpec 5) rfl) (by decide)

end KataAgent
