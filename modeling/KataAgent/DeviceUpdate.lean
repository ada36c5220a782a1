import KataAgent.Message
import KataAgent.Renumbering

namespace KataAgent
open Fallible Renumbering
set_option autoImplicit true

/-- What the guest answers about device nodes and device addresses during one request. -/
structure DeviceGuest where
  nodeExists : String → Bool
  /-- The `rdev` field of `fs::metadata`. -/
  rdev : String → Outcome ErrorKind UInt64
  pciDeviceName : String → Outcome ErrorKind String
  scsiDeviceName : String → Outcome ErrorKind String

def major (dev : UInt64) : UInt32 :=
  (((dev &&& (0xfff00 : UInt64)) >>> (8 : UInt64)) |||
    ((dev &&& (0xfffff00000000000 : UInt64)) >>> (32 : UInt64))).toUInt32

def minor (dev : UInt64) : UInt32 :=
  ((dev &&& (0xff : UInt64)) |||
    ((dev &&& (0xffffff00000 : UInt64)) >>> (12 : UInt64))).toUInt32

/-- A major and a minor number. -/
abbrev DevNumber := Int × Int

def devNumber (dev : UInt64) : DevNumber := ((major dev).toNat, (minor dev).toNat)

def LinuxDevice.number (d : LinuxDevice) : DevNumber := (d.major, d.minor)

def LinuxDevice.setNumber (d : LinuxDevice) (n : DevNumber) : LinuxDevice :=
  { d with major := n.1, minor := n.2 }

def LinuxDeviceCgroup.number (d : LinuxDeviceCgroup) : DevNumber := (d.major, d.minor)

def LinuxDeviceCgroup.setNumber (d : LinuxDeviceCgroup) (n : DevNumber) : LinuxDeviceCgroup :=
  { d with major := n.1, minor := n.2 }

@[simp] theorem LinuxDevice.number_setNumber (d : LinuxDevice) (n : DevNumber) :
    (d.setNumber n).number = n := rfl

@[simp] theorem LinuxDevice.path_setNumber (d : LinuxDevice) (n : DevNumber) :
    (d.setNumber n).path = d.path := rfl

@[simp] theorem LinuxDevice.setNumber_setNumber (d : LinuxDevice) (m n : DevNumber) :
    (d.setNumber m).setNumber n = d.setNumber n := rfl

@[simp] theorem LinuxDeviceCgroup.number_setNumber (d : LinuxDeviceCgroup) (n : DevNumber) :
    (d.setNumber n).number = n := rfl

@[simp] theorem LinuxDeviceCgroup.setNumber_number (d : LinuxDeviceCgroup) :
    d.setNumber d.number = d := rfl

@[simp] theorem LinuxDeviceCgroup.setNumber_setNumber (d : LinuxDeviceCgroup) (m n : DevNumber) :
    (d.setNumber m).setNumber n = d.setNumber n := rfl

/-- The loop over `Resources.Devices` for one matching device. -/
def updateRules (host guest : DevNumber) (res : LinuxResources) : LinuxResources :=
  { res with devices := res.devices.map fun d =>
      if d.major = host.1 ∧ d.minor = host.2 then
        { d with major := guest.1, minor := guest.2 }
      else d }

/-- The loop over `Linux.Devices`; each match rewrites the rules with its current number. -/
def updateDevices (containerPath : String) (guest : DevNumber) :
    List LinuxDevice → Option LinuxResources → List LinuxDevice × Option LinuxResources
  | [], resource => ([], resource)
  | dev :: devices, resource =>
    if dev.path = containerPath then
      let rest := updateDevices containerPath guest devices
        (resource.map (updateRules (dev.major, dev.minor) guest))
      ({ dev with major := guest.1, minor := guest.2 } :: rest.1, rest.2)
    else
      let rest := updateDevices containerPath guest devices resource
      (dev :: rest.1, rest.2)

def updateSpecDeviceList (g : DeviceGuest) (device : Device) (spec : Spec) :
    Outcome ErrorKind Spec :=
  if device.containerPath = "" then
    .err (.msg ("container_path  cannot empty for device " ++ reprStr device))
  else
    match spec.linux with
    | none => .err (.errorCode "Spec didn't container linux field")
    | some linux =>
      if g.nodeExists device.vmPath then do
        let devId ← g.rdev device.vmPath
        let r := updateDevices device.containerPath (devNumber devId) linux.devices linux.resources
        .ok { spec with linux := some { linux with devices := r.1, resources := r.2 } }
      else
        .err (.msg ("vm_path:" ++ device.vmPath ++ " doesn't exist"))

abbrev DeviceHandler := DeviceGuest → Device → Spec → Outcome ErrorKind Spec

def virtioMmioBlkDeviceHandler : DeviceHandler := fun g device spec =>
  if device.vmPath = "" then .err (.msg "Invalid path for virtiommioblkdevice")
  else updateSpecDeviceList g device spec

def virtioBlkDeviceHandler : DeviceHandler := fun g device spec => do
  let devPath ← g.pciDeviceName device.id
  updateSpecDeviceList g { device with vmPath := devPath } spec

def virtioScsiDeviceHandler : DeviceHandler := fun g device spec => do
  let devPath ← g.scsiDeviceName device.id
  updateSpecDeviceList g { device with vmPath := devPath } spec

def virtioNvdimmDeviceHandler : DeviceHandler := updateSpecDeviceList

def deviceHandlerList : List (String × DeviceHandler) :=
  [("blk", virtioBlkDeviceHandler), ("mmioblk", virtioMmioBlkDeviceHandler),
    ("nvdimm", virtioNvdimmDeviceHandler), ("scsi", virtioScsiDeviceHandler)]

def addDevice (g : DeviceGuest) (device : Device) (spec : Spec) : Outcome ErrorKind Spec :=
  if device.type = "" then .err (.msg ("invalid type for device " ++ reprStr device))
  else if device.id = "" ∧ device.vmPath = "" then
    .err (.msg ("invalid ID and VM path for device " ++ reprStr device))
  else if device.containerPath = "" then
    .err (.msg ("invalid container path for device " ++ reprStr device))
  else
    match deviceHandlerList.lookup device.type with
    | none => .err (.msg ("Unknown device type " ++ device.type))
    | some devHandler => devHandler g device spec

def addDevices (g : DeviceGuest) : List Device → Spec → Outcome ErrorKind Spec
  | [], spec => .ok spec
  | device :: devices, spec => do
    let spec ← addDevice g device spec
    addDevices g devices spec

/-- The node that a device's handler reads the guest numbers from. -/
def DeviceGuest.node (g : DeviceGuest) (device : Device) : Outcome ErrorKind String :=
  if device.type = "blk" then g.pciDeviceName device.id
  else if device.type = "scsi" then g.scsiDeviceName device.id
  else .ok device.vmPath

def DeviceGuest.number (g : DeviceGuest) (device : Device) : Outcome ErrorKind DevNumber := do
  let node ← g.node device
  let devId ← g.rdev node
  .ok (devNumber devId)

/-- Write one guest number into the entries at a path, and into the rules of these entries. -/
def Linux.retarget (linux : Linux) (containerPath : String) (guest : DevNumber) : Linux :=
  let r := updateDevices containerPath guest linux.devices linux.resources
  { linux with devices := r.1, resources := r.2 }

theorem updateSpecDeviceList_ok (h : updateSpecDeviceList g device spec = .ok spec') :
    ∃ linux devId, spec.linux = some linux ∧ g.rdev device.vmPath = .ok devId ∧
      spec' =
        { spec with linux := some (linux.retarget device.containerPath (devNumber devId)) } := by
  rw [updateSpecDeviceList] at h
  split at h
  · cases h
  · split at h
    · cases h
    · rename_i linux hl
      split at h
      · obtain ⟨devId, hd, h⟩ := Outcome.bind_eq_ok.1 h
        exact ⟨linux, devId, hl, hd, (Outcome.ok.inj h).symm⟩
      · cases h

/-- All four handlers resolve a node and then update the spec with its numbers. -/
theorem addDevice_ok (h : addDevice g device spec = .ok spec') :
    ∃ linux n, spec.linux = some linux ∧ g.number device = .ok n ∧
      spec' = { spec with linux := some (linux.retarget device.containerPath n) } := by
  rw [addDevice] at h
  split at h; · cases h
  split at h; · cases h
  split at h; · cases h
  split at h
  · cases h
  · rename_i handler hh
    have hnumber {node : String} (hn : g.node device = .ok node)
        (hu : updateSpecDeviceList g { device with vmPath := node } spec = .ok spec') :
        ∃ linux n, spec.linux = some linux ∧ g.number device = .ok n ∧
          spec' = { spec with linux := some (linux.retarget device.containerPath n) } := by
      obtain ⟨linux, devId, hl, hd, he⟩ := updateSpecDeviceList_ok hu
      refine ⟨linux, devNumber devId, hl, ?_, he⟩
      have hd' : g.rdev node = .ok devId := hd
      simp only [DeviceGuest.number, hn, hd', Outcome.ok_bind]
    simp only [deviceHandlerList, List.lookup_cons, List.lookup_nil] at hh
    split at hh
    · rename_i ht
      cases hh
      obtain ⟨node, hn, hu⟩ := Outcome.bind_eq_ok.1 h
      exact hnumber (by simpa [DeviceGuest.node, eq_of_beq ht] using hn) hu
    · split at hh
      · rename_i ht
        cases hh
        simp only [virtioMmioBlkDeviceHandler] at h
        split at h
        · cases h
        · exact hnumber (by simp [DeviceGuest.node, eq_of_beq ht]) h
      · split at hh
        · rename_i ht
          cases hh
          exact hnumber (by simp [DeviceGuest.node, eq_of_beq ht]) h
        · split at hh
          · rename_i ht
            cases hh
            obtain ⟨node, hn, hu⟩ := Outcome.bind_eq_ok.1 h
            exact hnumber (by simpa [DeviceGuest.node, eq_of_beq ht] using hn) hu
          · cases hh

end KataAgent
