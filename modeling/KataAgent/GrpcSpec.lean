import KataAgent.Message
import KataAgent.Table

namespace KataAgent
set_option autoImplicit true

namespace Grpc

structure Box where
  height : UInt32
  width : UInt32
  deriving DecidableEq

structure User where
  uid : UInt32
  gid : UInt32
  additionalGids : List UInt32
  username : String
  deriving DecidableEq

structure LinuxCapabilities where
  bounding : List String
  effective : List String
  inheritable : List String
  permitted : List String
  ambient : List String
  deriving DecidableEq

structure POSIXRlimit where
  type : String
  hard : UInt64
  soft : UInt64
  deriving DecidableEq

structure Process where
  terminal : Bool
  consoleSize : Option Box
  user : Option User
  args : List String
  env : List String
  cwd : String
  capabilities : Option LinuxCapabilities
  rlimits : List POSIXRlimit
  noNewPrivileges : Bool
  apparmorProfile : String
  oomScoreAdj : Int64
  selinuxLabel : String
  deriving DecidableEq

structure Mount where
  destination : String
  source : String
  fieldType : String
  options : List String
  deriving DecidableEq

structure Root where
  path : String
  readonly : Bool
  deriving DecidableEq

structure Hook where
  path : String
  args : List String
  env : List String
  timeout : Int64
  deriving DecidableEq

structure Hooks where
  prestart : List Hook
  poststart : List Hook
  poststop : List Hook
  deriving DecidableEq

structure LinuxIDMapping where
  hostID : UInt32
  containerID : UInt32
  size : UInt32
  deriving DecidableEq

structure LinuxDevice where
  path : String
  type : String
  major : Int64
  minor : Int64
  fileMode : UInt32
  uid : UInt32
  gid : UInt32
  deriving DecidableEq

structure LinuxMemory where
  limit : Int64
  reservation : Int64
  swap : Int64
  kernel : Int64
  kernelTCP : Int64
  swappiness : UInt64
  disableOOMKiller : Bool
  deriving DecidableEq

structure LinuxCPU where
  shares : UInt64
  quota : Int64
  period : UInt64
  realtimeRuntime : Int64
  realtimePeriod : UInt64
  cpus : String
  mems : String
  deriving DecidableEq

structure LinuxWeightDevice where
  major : Int64
  minor : Int64
  weight : UInt32
  leafWeight : UInt32
  deriving DecidableEq

structure LinuxThrottleDevice where
  major : Int64
  minor : Int64
  rate : UInt64
  deriving DecidableEq

structure LinuxBlockIO where
  weight : UInt32
  leafWeight : UInt32
  weightDevice : List LinuxWeightDevice
  throttleReadBpsDevice : List LinuxThrottleDevice
  throttleWriteBpsDevice : List LinuxThrottleDevice
  throttleReadIOPSDevice : List LinuxThrottleDevice
  throttleWriteIOPSDevice : List LinuxThrottleDevice
  deriving DecidableEq

structure LinuxPids where
  limit : Int64
  deriving DecidableEq

structure LinuxDeviceCgroup where
  allow : Bool
  type : String
  major : Int64
  minor : Int64
  access : String
  deriving DecidableEq

structure LinuxInterfacePriority where
  name : String
  priority : UInt32
  deriving DecidableEq

structure LinuxNetwork where
  classID : UInt32
  priorities : List LinuxInterfacePriority
  deriving DecidableEq

structure LinuxHugepageLimit where
  pagesize : String
  limit : UInt64
  deriving DecidableEq

structure LinuxResources where
  devices : List LinuxDeviceCgroup
  memory : Option LinuxMemory
  cpu : Option LinuxCPU
  pids : Option LinuxPids
  blockIO : Option LinuxBlockIO
  hugepageLimits : List LinuxHugepageLimit
  network : Option LinuxNetwork
  deriving DecidableEq

structure LinuxSeccompArg where
  index : UInt64
  value : UInt64
  valueTwo : UInt64
  op : String
  deriving DecidableEq

structure LinuxSyscall where
  names : List String
  action : String
  args : List LinuxSeccompArg
  deriving DecidableEq

structure LinuxSeccomp where
  defaultAction : String
  architectures : List String
  syscalls : List LinuxSyscall
  deriving DecidableEq

structure LinuxIntelRdt where
  l3CacheSchema : String
  deriving DecidableEq

structure Linux where
  uidMappings : List LinuxIDMapping
  gidMappings : List LinuxIDMapping
  sysctl : Table String String
  resources : Option LinuxResources
  cgroupsPath : String
  namespaces : List LinuxNamespace
  devices : List LinuxDevice
  seccomp : Option LinuxSeccomp
  rootfsPropagation : String
  maskedPaths : List String
  readonlyPaths : List String
  mountLabel : String
  intelRdt : Option LinuxIntelRdt
  deriving DecidableEq

/-- The messages of the other platforms hold a text that is never used. -/
structure Solaris where
  dummy : String
  deriving DecidableEq

structure Windows where
  dummy : String
  deriving DecidableEq

/-- The `Spec` message of `oci.proto`, with all that it holds. -/
structure Spec where
  version : String
  process : Option Process
  root : Option Root
  hostname : String
  mounts : List Mount
  hooks : Option Hooks
  annotations : Table String String
  linux : Option Linux
  solaris : Option Solaris
  windows : Option Windows
  deriving DecidableEq

/-- The messages that leave out every field. -/
def Linux.empty : Linux where
  uidMappings := []
  gidMappings := []
  sysctl := ∅
  resources := none
  cgroupsPath := ""
  namespaces := []
  devices := []
  seccomp := none
  rootfsPropagation := ""
  maskedPaths := []
  readonlyPaths := []
  mountLabel := ""
  intelRdt := none

def Spec.empty : Spec where
  version := ""
  process := none
  root := none
  hostname := ""
  mounts := []
  hooks := none
  annotations := ∅
  linux := none
  solaris := none
  windows := none

end Grpc

end KataAgent
