import KataAgent.OciSpec

namespace KataAgent
set_option autoImplicit true
open Serials

namespace Oci

theorem toInt_injective : Function.Injective Int64.toInt := fun _ _ h => Int64.toInt_inj.1 h

theorem uint32_injective : Function.Injective fun n : UInt32 => (n.toNat : Int) :=
  fun _ _ h => UInt32.toNat_inj.1 (Int.ofNat.inj h)

theorem uint64_injective : Function.Injective fun n : UInt64 => (n.toNat : Int) :=
  fun _ _ h => UInt64.toNat_inj.1 (Int.ofNat.inj h)

def i32 : Serial Int32 := .number Int32.toInt fun _ _ h => Int32.toInt_inj.1 h

def i64 : Serial Int64 := .number Int64.toInt toInt_injective

def u16 : Serial UInt16 :=
  .number (fun n => n.toNat) fun _ _ h => UInt16.toNat_inj.1 (Int.ofNat.inj h)

def u32 : Serial UInt32 := .number (fun n => n.toNat) uint32_injective

def u64 : Serial UInt64 := .number (fun n => n.toNat) uint64_injective

def Box.serial : Serial Box :=
  .record
    [ ⟨"height", .always u32, height⟩,
      ⟨"width", .always u32, width⟩ ]

def User.serial : Serial User :=
  .record
    [ ⟨"uid", .always u32, uid⟩,
      ⟨"gid", .always u32, gid⟩,
      ⟨"addtionalGids", .list u32, additionalGids⟩,
      ⟨"username", .string, username⟩ ]

def LinuxCapabilities.serial : Serial LinuxCapabilities :=
  .record
    [ ⟨"bounding", .list .string, bounding⟩,
      ⟨"effective", .list .string, effective⟩,
      ⟨"inheritable", .list .string, inheritable⟩,
      ⟨"permitted", .list .string, permitted⟩,
      ⟨"ambient", .list .string, ambient⟩ ]

def POSIXRlimit.serial : Serial POSIXRlimit :=
  .record
    [ ⟨"type", .always .string, type⟩,
      ⟨"hard", .always u64, hard⟩,
      ⟨"soft", .always u64, soft⟩ ]

def Process.serial : Serial Process :=
  .record
    [ ⟨"terminal", .always .boolean, terminal⟩,
      ⟨"consoleSize", .option Box.serial, consoleSize⟩,
      ⟨"user", .always User.serial, user⟩,
      ⟨"args", .list .string, args⟩,
      ⟨"env", .list .string, env⟩,
      ⟨"cwd", .string, cwd⟩,
      ⟨"capabilities", .option LinuxCapabilities.serial, capabilities⟩,
      ⟨"rlimits", .list POSIXRlimit.serial, rlimits⟩,
      ⟨"noNewPrivileges", .always .boolean, noNewPrivileges⟩,
      ⟨"apparmorProfile", .string, apparmorProfile⟩,
      ⟨"oomScoreAdj", .option i32, oomScoreAdj⟩,
      ⟨"selinuxLabel", .string, selinuxLabel⟩ ]

def Root.serial : Serial Root :=
  .record
    [ ⟨"path", .string, path⟩,
      ⟨"readonly", .always .boolean, readonly⟩ ]

def Mount.serial : Serial Mount :=
  .record
    [ ⟨"destination", .always .string, destination⟩,
      ⟨"type", .string, type⟩,
      ⟨"source", .string, source⟩,
      ⟨"options", .list .string, options⟩ ]

def Hook.serial : Serial Hook :=
  .record
    [ ⟨"path", .string, path⟩,
      ⟨"args", .list .string, args⟩,
      ⟨"env", .list .string, env⟩,
      ⟨"timeout", .option i32, timeout⟩ ]

def Hooks.serial : Serial Hooks :=
  .record
    [ ⟨"prestart", .list Hook.serial, prestart⟩,
      ⟨"poststart", .list Hook.serial, poststart⟩,
      ⟨"poststop", .list Hook.serial, poststop⟩ ]

def LinuxNamespace.serial : Serial LinuxNamespace :=
  .record
    [ ⟨"type", .string, type⟩,
      ⟨"path", .string, path⟩ ]

def LinuxIDMapping.serial : Serial LinuxIDMapping :=
  .record
    [ ⟨"containerID", .always u32, containerId⟩,
      ⟨"hostID", .always u32, hostId⟩,
      ⟨"size", .always u32, size⟩ ]

def LinuxHugepageLimit.serial : Serial LinuxHugepageLimit :=
  .record
    [ ⟨"pageSize", .string, pageSize⟩,
      ⟨"limit", .always u64, limit⟩ ]

def LinuxInterfacePriority.serial : Serial LinuxInterfacePriority :=
  .record
    [ ⟨"name", .string, name⟩,
      ⟨"priority", .always u32, priority⟩ ]

def LinuxBlockIODevice.serial : Serial LinuxBlockIODevice :=
  .record
    [ ⟨"major", .always i64, major⟩,
      ⟨"minor", .always i64, minor⟩ ]

def LinuxWeightDevice.serial : Serial LinuxWeightDevice :=
  .record
    [ ⟨"blk", .always LinuxBlockIODevice.serial, blk⟩,
      ⟨"weight", .option u16, weight⟩,
      ⟨"leafWeight", .option u16, leafWeight⟩ ]

def LinuxThrottleDevice.serial : Serial LinuxThrottleDevice :=
  .record
    [ ⟨"blk", .always LinuxBlockIODevice.serial, blk⟩,
      ⟨"rate", .always u64, rate⟩ ]

def LinuxBlockIO.serial : Serial LinuxBlockIO :=
  .record
    [ ⟨"weight", .option u16, weight⟩,
      ⟨"leafWeight", .option u16, leafWeight⟩,
      ⟨"weightDevice", .list LinuxWeightDevice.serial, weightDevice⟩,
      ⟨"throttleReadBpsDevice", .list LinuxThrottleDevice.serial, throttleReadBpsDevice⟩,
      ⟨"throttleWriteBpsDevice", .list LinuxThrottleDevice.serial, throttleWriteBpsDevice⟩,
      ⟨"throttleReadIOPSDevice", .list LinuxThrottleDevice.serial, throttleReadIopsDevice⟩,
      ⟨"throttleWriteIOPSDevice", .list LinuxThrottleDevice.serial, throttleWriteIopsDevice⟩ ]

def LinuxMemory.serial : Serial LinuxMemory :=
  .record
    [ ⟨"limit", .option i64, limit⟩,
      ⟨"reservation", .option i64, reservation⟩,
      ⟨"swap", .option i64, swap⟩,
      ⟨"kernel", .option i64, kernel⟩,
      ⟨"kernelTCP", .option i64, kernelTcp⟩,
      ⟨"swapiness", .option i64, swapiness⟩,
      ⟨"disableOOMKiller", .option .boolean, disableOomKiller⟩ ]

def LinuxCPU.serial : Serial LinuxCPU :=
  .record
    [ ⟨"shares", .option u64, shares⟩,
      ⟨"quota", .option i64, quota⟩,
      ⟨"period", .option u64, period⟩,
      ⟨"realtimeRuntime", .option i64, realtimeRuntime⟩,
      ⟨"realtimePeriod", .option u64, realtimePeriod⟩,
      ⟨"cpus", .string, cpus⟩,
      ⟨"mems", .string, mems⟩ ]

def LinuxPids.serial : Serial LinuxPids :=
  .record
    [ ⟨"limit", .always i64, limit⟩ ]

def LinuxNetwork.serial : Serial LinuxNetwork :=
  .record
    [ ⟨"classID", .option u32, classId⟩,
      ⟨"priorities", .list LinuxInterfacePriority.serial, priorities⟩ ]

def LinuxDeviceCgroup.serial : Serial LinuxDeviceCgroup :=
  .record
    [ ⟨"allow", .always .boolean, allow⟩,
      ⟨"type", .string, type⟩,
      ⟨"major", .option i64, major⟩,
      ⟨"minor", .option i64, minor⟩,
      ⟨"access", .string, access⟩ ]

def LinuxResources.serial : Serial LinuxResources :=
  .record
    [ ⟨"devices", .list LinuxDeviceCgroup.serial, devices⟩,
      ⟨"memory", .option LinuxMemory.serial, memory⟩,
      ⟨"cpu", .option LinuxCPU.serial, cpu⟩,
      ⟨"pids", .option LinuxPids.serial, pids⟩,
      ⟨"blockIO", .option LinuxBlockIO.serial, blockIo⟩,
      ⟨"hugepageLimits", .list LinuxHugepageLimit.serial, hugepageLimits⟩,
      ⟨"network", .option LinuxNetwork.serial, network⟩ ]

def LinuxDevice.serial : Serial LinuxDevice :=
  .record
    [ ⟨"path", .string, path⟩,
      ⟨"type", .string, type⟩,
      ⟨"major", .always i64, major⟩,
      ⟨"minor", .always i64, minor⟩,
      ⟨"fileMode", .option u32, fileMode⟩,
      ⟨"uid", .option u32, uid⟩,
      ⟨"gid", .option u32, gid⟩ ]

def LinuxSeccompArg.serial : Serial LinuxSeccompArg :=
  .record
    [ ⟨"index", .always u32, index⟩,
      ⟨"value", .always u64, value⟩,
      ⟨"valueTwo", .always u64, valueTwo⟩,
      ⟨"op", .always .string, op⟩ ]

def LinuxSyscall.serial : Serial LinuxSyscall :=
  .record
    [ ⟨"names", .list .string, names⟩,
      ⟨"action", .string, action⟩,
      ⟨"args", .list LinuxSeccompArg.serial, args⟩ ]

def LinuxSeccomp.serial : Serial LinuxSeccomp :=
  .record
    [ ⟨"defaultAction", .always .string, defaultAction⟩,
      ⟨"architectures", .list .string, architectures⟩,
      ⟨"syscalls", .list LinuxSyscall.serial, syscalls⟩ ]

def LinuxIntelRdt.serial : Serial LinuxIntelRdt :=
  .record
    [ ⟨"l3CacheSchema", .string, l3CacheSchema⟩ ]

def Linux.serial : Serial Linux :=
  .record
    [ ⟨"uidMappings", .list LinuxIDMapping.serial, uidMappings⟩,
      ⟨"gidMappings", .list LinuxIDMapping.serial, gidMappings⟩,
      ⟨"sysctl", .map, sysctl⟩,
      ⟨"resources", .option LinuxResources.serial, resources⟩,
      ⟨"cgroupsPath", .string, cgroupsPath⟩,
      ⟨"namespaces", .list LinuxNamespace.serial, namespaces⟩,
      ⟨"devices", .list LinuxDevice.serial, devices⟩,
      ⟨"seccomp", .option LinuxSeccomp.serial, seccomp⟩,
      ⟨"rootfsPropagation", .string, rootfsPropagation⟩,
      ⟨"maskedPaths", .list .string, maskedPaths⟩,
      ⟨"readonlyPaths", .list .string, readonlyPaths⟩,
      ⟨"mountLabel", .string, mountLabel⟩,
      ⟨"intelRdt", .option LinuxIntelRdt.serial, intelRdt⟩ ]

def SolarisAnet.serial : Serial SolarisAnet :=
  .record
    [ ⟨"linkname", .string, linkName⟩,
      ⟨"lowerLink", .string, lowerLink⟩,
      ⟨"allowdAddress", .string, allowedAddr⟩,
      ⟨"configureAllowedAddress", .string, configAllowedAddr⟩,
      ⟨"defrouter", .string, defrouter⟩,
      ⟨"linkProtection", .string, linkProtection⟩,
      ⟨"macAddress", .string, macAddress⟩ ]

def SolarisCappedCPU.serial : Serial SolarisCappedCPU :=
  .record
    [ ⟨"ncpus", .string, ncpus⟩ ]

def SolarisCappedMemory.serial : Serial SolarisCappedMemory :=
  .record
    [ ⟨"physical", .string, physical⟩,
      ⟨"swap", .string, swap⟩ ]

def Solaris.serial : Serial Solaris :=
  .record
    [ ⟨"milestone", .string, milestone⟩,
      ⟨"limitpriv", .string, limitpriv⟩,
      ⟨"maxShmMemory", .string, maxShmMemory⟩,
      ⟨"anet", .list SolarisAnet.serial, anet⟩,
      ⟨"cappedCPU", .option SolarisCappedCPU.serial, cappedCpu⟩,
      ⟨"cappedMemory", .option SolarisCappedMemory.serial, cappedMemory⟩ ]

def WindowsMemoryResources.serial : Serial WindowsMemoryResources :=
  .record
    [ ⟨"limit", .option u64, limit⟩ ]

def WindowsCPUResources.serial : Serial WindowsCPUResources :=
  .record
    [ ⟨"count", .option u64, count⟩,
      ⟨"shares", .option u64, shares⟩,
      ⟨"maximum", .option u64, maximum⟩ ]

def WindowsStorageResources.serial : Serial WindowsStorageResources :=
  .record
    [ ⟨"iops", .option u64, iops⟩,
      ⟨"bps", .option u64, bps⟩,
      ⟨"sandboxSize", .option u64, sandboxSize⟩ ]

def WindowsResources.serial : Serial WindowsResources :=
  .record
    [ ⟨"memory", .option WindowsMemoryResources.serial, memory⟩,
      ⟨"cpu", .option WindowsCPUResources.serial, cpu⟩,
      ⟨"storage", .option WindowsStorageResources.serial, storage⟩ ]

def WindowsHyperV.serial : Serial WindowsHyperV :=
  .record
    [ ⟨"utilityVMPath", .string, utilityVmPath⟩ ]

def WindowsNetwork.serial : Serial WindowsNetwork :=
  .record
    [ ⟨"endpointList", .list .string, endpointList⟩,
      ⟨"allowUnqualifiedDNSQuery", .always .boolean, allowUnqualifiedDnsQuery⟩,
      ⟨"DNSSearchList", .list .string, dnsSearchList⟩,
      ⟨"nwtworkSharedContainerName", .string, networkSharedContainerName⟩ ]

def Windows.serial : Serial Windows :=
  .record
    [ ⟨"layerFolders", .list .string, layerFolders⟩,
      ⟨"resources", .option WindowsResources.serial, resources⟩,
      ⟨"credentialSpec", .always .string, credentialSpec⟩,
      ⟨"servicing", .always .boolean, servicing⟩,
      ⟨"ignoreFlushesDuringBoot", .always .boolean, ignoreFlushesDuringBoot⟩,
      ⟨"hyperv", .option WindowsHyperV.serial, hyperv⟩,
      ⟨"network", .option WindowsNetwork.serial, network⟩ ]

def VMHypervisor.serial : Serial VMHypervisor :=
  .record
    [ ⟨"path", .always .string, path⟩,
      ⟨"parameters", .string, parameters⟩ ]

def VMKernel.serial : Serial VMKernel :=
  .record
    [ ⟨"path", .always .string, path⟩,
      ⟨"parameters", .string, parameters⟩,
      ⟨"initrd", .string, initrd⟩ ]

def VMImage.serial : Serial VMImage :=
  .record
    [ ⟨"path", .always .string, path⟩,
      ⟨"format", .always .string, format⟩ ]

def VM.serial : Serial VM :=
  .record
    [ ⟨"hypervisor", .always VMHypervisor.serial, hypervisor⟩,
      ⟨"kernel", .always VMKernel.serial, kernel⟩,
      ⟨"image", .always VMImage.serial, image⟩ ]

def Spec.serial : Serial Spec :=
  .record
    [ ⟨"ociVersion", .string, version⟩,
      ⟨"process", .option Process.serial, process⟩,
      ⟨"root", .option Root.serial, root⟩,
      ⟨"hostname", .string, hostname⟩,
      ⟨"mounts", .list Mount.serial, mounts⟩,
      ⟨"hooks", .option Hooks.serial, hooks⟩,
      ⟨"annotations", .map, annotations⟩,
      ⟨"linux", .option Linux.serial, linux⟩,
      ⟨"solaris", .option Solaris.serial, solaris⟩,
      ⟨"windows", .option Windows.serial, windows⟩,
      ⟨"vm", .option VM.serial, vm⟩ ]

/-- `config.json`, as `Spec::save` writes it. -/
def Spec.configJson (spec : Spec) : Json := Spec.serial.toJson spec

theorem configJson_inj {a b : Spec} : a.configJson = b.configJson ↔ a = b :=
  Spec.serial.injective.eq_iff

end Oci

end KataAgent
