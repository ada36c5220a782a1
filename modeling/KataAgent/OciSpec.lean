import KataAgent.Serials

namespace KataAgent
set_option autoImplicit true
open Serials

namespace Oci

structure Box where
  height : UInt32
  width : UInt32

structure User where
  uid : UInt32
  gid : UInt32
  additionalGids : List UInt32
  username : String

structure LinuxCapabilities where
  bounding : List String
  effective : List String
  inheritable : List String
  permitted : List String
  ambient : List String

structure POSIXRlimit where
  type : String
  hard : UInt64
  soft : UInt64

structure Process where
  terminal : Bool
  consoleSize : Option Box
  user : User
  args : List String
  env : List String
  cwd : String
  capabilities : Option LinuxCapabilities
  rlimits : List POSIXRlimit
  noNewPrivileges : Bool
  apparmorProfile : String
  oomScoreAdj : Option Int32
  selinuxLabel : String

structure Root where
  path : String
  readonly : Bool

structure Mount where
  destination : String
  type : String
  source : String
  options : List String

structure Hook where
  path : String
  args : List String
  env : List String
  timeout : Option Int32

structure Hooks where
  prestart : List Hook
  poststart : List Hook
  poststop : List Hook

structure LinuxNamespace where
  type : String
  path : String

structure LinuxIDMapping where
  containerId : UInt32
  hostId : UInt32
  size : UInt32

structure LinuxHugepageLimit where
  pageSize : String
  limit : UInt64

structure LinuxInterfacePriority where
  name : String
  priority : UInt32

structure LinuxBlockIODevice where
  major : Int64
  minor : Int64

structure LinuxWeightDevice where
  blk : LinuxBlockIODevice
  weight : Option UInt16
  leafWeight : Option UInt16

structure LinuxThrottleDevice where
  blk : LinuxBlockIODevice
  rate : UInt64

structure LinuxBlockIO where
  weight : Option UInt16
  leafWeight : Option UInt16
  weightDevice : List LinuxWeightDevice
  throttleReadBpsDevice : List LinuxThrottleDevice
  throttleWriteBpsDevice : List LinuxThrottleDevice
  throttleReadIopsDevice : List LinuxThrottleDevice
  throttleWriteIopsDevice : List LinuxThrottleDevice

structure LinuxMemory where
  limit : Option Int64
  reservation : Option Int64
  swap : Option Int64
  kernel : Option Int64
  kernelTcp : Option Int64
  swapiness : Option Int64
  disableOomKiller : Option Bool

structure LinuxCPU where
  shares : Option UInt64
  quota : Option Int64
  period : Option UInt64
  realtimeRuntime : Option Int64
  realtimePeriod : Option UInt64
  cpus : String
  mems : String

structure LinuxPids where
  limit : Int64

structure LinuxNetwork where
  classId : Option UInt32
  priorities : List LinuxInterfacePriority

structure LinuxDeviceCgroup where
  allow : Bool
  type : String
  major : Option Int64
  minor : Option Int64
  access : String

/-- The map `rdma` is left out: it is always empty, and an empty map is not written. -/
structure LinuxResources where
  devices : List LinuxDeviceCgroup
  memory : Option LinuxMemory
  cpu : Option LinuxCPU
  pids : Option LinuxPids
  blockIo : Option LinuxBlockIO
  hugepageLimits : List LinuxHugepageLimit
  network : Option LinuxNetwork

structure LinuxDevice where
  path : String
  type : String
  major : Int64
  minor : Int64
  fileMode : Option UInt32
  uid : Option UInt32
  gid : Option UInt32

structure LinuxSeccompArg where
  index : UInt32
  value : UInt64
  valueTwo : UInt64
  op : String

structure LinuxSyscall where
  names : List String
  action : String
  args : List LinuxSeccompArg

structure LinuxSeccomp where
  defaultAction : String
  architectures : List String
  syscalls : List LinuxSyscall

structure LinuxIntelRdt where
  l3CacheSchema : String

structure Linux where
  uidMappings : List LinuxIDMapping
  gidMappings : List LinuxIDMapping
  sysctl : Table String String
  resources : Option LinuxResources
  cgroupsPath : String
  namespaces : List LinuxNamespace
  devices : List LinuxDevice
  seccomp : Option LinuxSeccomp
  rootfsPropagation : String
  maskedPaths : List String
  readonlyPaths : List String
  mountLabel : String
  intelRdt : Option LinuxIntelRdt

structure SolarisAnet where
  linkName : String
  lowerLink : String
  allowedAddr : String
  configAllowedAddr : String
  defrouter : String
  linkProtection : String
  macAddress : String

structure SolarisCappedCPU where
  ncpus : String

structure SolarisCappedMemory where
  physical : String
  swap : String

structure Solaris where
  milestone : String
  limitpriv : String
  maxShmMemory : String
  anet : List SolarisAnet
  cappedCpu : Option SolarisCappedCPU
  cappedMemory : Option SolarisCappedMemory

structure WindowsMemoryResources where
  limit : Option UInt64

structure WindowsCPUResources where
  count : Option UInt64
  shares : Option UInt64
  maximum : Option UInt64

structure WindowsStorageResources where
  iops : Option UInt64
  bps : Option UInt64
  sandboxSize : Option UInt64

structure WindowsResources where
  memory : Option WindowsMemoryResources
  cpu : Option WindowsCPUResources
  storage : Option WindowsStorageResources

structure WindowsHyperV where
  utilityVmPath : String

structure WindowsNetwork where
  endpointList : List String
  allowUnqualifiedDnsQuery : Bool
  dnsSearchList : List String
  networkSharedContainerName : String

structure Windows where
  layerFolders : List String
  resources : Option WindowsResources
  credentialSpec : String
  servicing : Bool
  ignoreFlushesDuringBoot : Bool
  hyperv : Option WindowsHyperV
  network : Option WindowsNetwork

structure VMHypervisor where
  path : String
  parameters : String

structure VMKernel where
  path : String
  parameters : String
  initrd : String

structure VMImage where
  path : String
  format : String

structure VM where
  hypervisor : VMHypervisor
  kernel : VMKernel
  image : VMImage

structure Spec where
  version : String
  process : Option Process
  root : Option Root
  hostname : String
  mounts : List Mount
  hooks : Option Hooks
  annotations : Table String String
  linux : Option Linux
  solaris : Option Solaris
  windows : Option Windows
  vm : Option VM

end Oci

end KataAgent
