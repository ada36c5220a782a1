import KataAgent.GrpcSpec
import KataAgent.OciSpec

namespace KataAgent
set_option autoImplicit true

/-- `MaybeUninit::zeroed`: the user whose numbers are 0 and whose list and name have length 0. -/
def Oci.User.zeroed : Oci.User where
  uid := 0
  gid := 0
  additionalGids := []
  username := ""

def processGrpcToOci (p : Grpc.Process) : Oci.Process where
  terminal := p.terminal
  consoleSize := p.consoleSize.map fun c => { height := c.height, width := c.width }
  user :=
    match p.user with
    | some u =>
      { uid := u.uid, gid := u.gid, additionalGids := u.additionalGids, username := u.username }
    | none => .zeroed
  args := p.args
  env := p.env
  cwd := p.cwd
  capabilities := p.capabilities.map fun cap =>
    { bounding := cap.bounding
      effective := cap.effective
      inheritable := cap.inheritable
      permitted := cap.permitted
      ambient := cap.ambient }
  rlimits := p.rlimits.map fun lm => { type := lm.type, hard := lm.hard, soft := lm.soft }
  noNewPrivileges := p.noNewPrivileges
  apparmorProfile := p.apparmorProfile
  oomScoreAdj := some p.oomScoreAdj.toInt32
  selinuxLabel := p.selinuxLabel

def rootGrpcToOci (root : Grpc.Root) : Oci.Root where
  path := root.path
  readonly := root.readonly

def mountGrpcToOci (m : Grpc.Mount) : Oci.Mount where
  destination := m.destination
  type := m.fieldType
  source := m.source
  options := m.options

def hookGrpcToOci (h : List Grpc.Hook) : List Oci.Hook :=
  h.map fun e =>
    { path := e.path, args := e.args, env := e.env, timeout := some e.timeout.toInt32 }

def hooksGrpcToOci (h : Grpc.Hooks) : Oci.Hooks where
  prestart := hookGrpcToOci h.prestart
  poststart := hookGrpcToOci h.poststart
  poststop := hookGrpcToOci h.poststop

def idmapGrpcToOci (im : Grpc.LinuxIDMapping) : Oci.LinuxIDMapping where
  containerId := im.containerID
  hostId := im.hostID
  size := im.size

def idmapsGrpcToOci (ims : List Grpc.LinuxIDMapping) : List Oci.LinuxIDMapping :=
  ims.map idmapGrpcToOci

def throttleDevicesGrpcToOci (tds : List Grpc.LinuxThrottleDevice) :
    List Oci.LinuxThrottleDevice :=
  tds.map fun td => { blk := { major := td.major, minor := td.minor }, rate := td.rate }

def weightDevicesGrpcToOci (wds : List Grpc.LinuxWeightDevice) : List Oci.LinuxWeightDevice :=
  wds.map fun wd =>
    { blk := { major := wd.major, minor := wd.minor }
      weight := some wd.weight.toUInt16
      leafWeight := some wd.leafWeight.toUInt16 }

def blockioGrpcToOci (blk : Grpc.LinuxBlockIO) : Oci.LinuxBlockIO where
  weight := some blk.weight.toUInt16
  leafWeight := some blk.leafWeight.toUInt16
  weightDevice := weightDevicesGrpcToOci blk.weightDevice
  throttleReadBpsDevice := throttleDevicesGrpcToOci blk.throttleReadBpsDevice
  throttleWriteBpsDevice := throttleDevicesGrpcToOci blk.throttleWriteBpsDevice
  throttleReadIopsDevice := throttleDevicesGrpcToOci blk.throttleReadIOPSDevice
  throttleWriteIopsDevice := throttleDevicesGrpcToOci blk.throttleWriteIOPSDevice

def resourcesGrpcToOci (res : Grpc.LinuxResources) : Oci.LinuxResources where
  devices := res.devices.map fun dev =>
    { allow := dev.allow
      type := dev.type
      major := if dev.major = (-1 : Int64) then none else some dev.major
      minor := if dev.minor = (-1 : Int64) then none else some dev.minor
      access := dev.access }
  memory := res.memory.map fun mem =>
    { limit := some mem.limit
      reservation := some mem.reservation
      swap := some mem.swap
      kernel := some mem.kernel
      kernelTcp := some mem.kernelTCP
      swapiness := some mem.swappiness.toInt64
      disableOomKiller := some mem.disableOOMKiller }
  cpu := res.cpu.map fun c =>
    { shares := some c.shares
      quota := some c.quota
      period := some c.period
      realtimeRuntime := some c.realtimeRuntime
      realtimePeriod := some c.realtimePeriod
      cpus := c.cpus
      mems := c.mems }
  pids := res.pids.map fun p => { limit := p.limit }
  blockIo := res.blockIO.map blockioGrpcToOci
  hugepageLimits := res.hugepageLimits.map fun hl => { pageSize := hl.pagesize, limit := hl.limit }
  network := res.network.map fun net =>
    { classId := some net.classID
      priorities := net.priorities.map fun pr => { name := pr.name, priority := pr.priority } }

def seccompGrpcToOci (sec : Grpc.LinuxSeccomp) : Oci.LinuxSeccomp where
  defaultAction := sec.defaultAction
  architectures := sec.architectures
  syscalls := sec.syscalls.map fun sys =>
    { names := sys.names
      action := sys.action
      args := sys.args.map fun arg =>
        { index := arg.index.toUInt32
          value := arg.value
          valueTwo := arg.valueTwo
          op := arg.op } }

def linuxGrpcToOci (l : Grpc.Linux) : Oci.Linux where
  uidMappings := idmapsGrpcToOci l.uidMappings
  gidMappings := idmapsGrpcToOci l.gidMappings
  sysctl := l.sysctl
  resources := l.resources.map resourcesGrpcToOci
  cgroupsPath := l.cgroupsPath
  namespaces := l.namespaces.map fun ns => { type := ns.type, path := ns.path }
  devices := l.devices.map fun d =>
    { path := d.path
      type := d.type
      major := d.major
      minor := d.minor
      fileMode := some d.fileMode
      uid := some d.uid
      gid := some d.gid }
  seccomp := l.seccomp.map seccompGrpcToOci
  rootfsPropagation := l.rootfsPropagation
  maskedPaths := l.maskedPaths
  readonlyPaths := l.readonlyPaths
  mountLabel := l.mountLabel
  intelRdt := l.intelRdt.map fun rdt => { l3CacheSchema := rdt.l3CacheSchema }

def grpcToOci (grpc : Grpc.Spec) : Oci.Spec where
  version := grpc.version
  process := grpc.process.map processGrpcToOci
  root := grpc.root.map rootGrpcToOci
  hostname := grpc.hostname
  mounts := grpc.mounts.map mountGrpcToOci
  hooks := grpc.hooks.map hooksGrpcToOci
  annotations := grpc.annotations
  linux := grpc.linux.map linuxGrpcToOci
  solaris := none
  windows := none
  vm := none

end KataAgent
