import KataAgent.HotplugNotices
import KataAgent.Segments

namespace KataAgent
open Fallible Transition Segments
set_option autoImplicit true

def sysBusPrefix : String := "/sys/bus/pci/devices"

def pciBusRescanFile : String := "/sys/bus/pci/rescan"

def scsiHostChannel : String := "0:0:"

def scsiHostPath : String := "/sys/class/scsi_host"

/-- What the guest's sysfs answers during one request. -/
structure Sysfs where
  /-- The file names of a directory. -/
  readDir : String → Outcome ErrorKind (List String)
  write : String → String → Outcome ErrorKind Unit

def Sysfs.onlineDevice (g : Sysfs) (path : String) : Outcome ErrorKind Unit := g.write path "1"

def Sysfs.rescanPciBus (g : Sysfs) : Outcome ErrorKind Unit := g.onlineDevice pciBusRescanFile

def getDevicePciAddress (g : Sysfs) (pciId : String) : Outcome ErrorKind String :=
  match pciId.toList.splitOn '/' with
  | [bridgeId, deviceId] => do
    let pciBridgeAddr := "0000:00:" ++ String.ofList bridgeId ++ ".0"
    let bridgeBusPath := sysBusPrefix ++ "/" ++ pciBridgeAddr ++ "/pci_bus/"
    let files ← (g.readDir bridgeBusPath).unwrap
    match files with
    | [bus] => .ok (pciBridgeAddr ++ "/" ++ (bus ++ ":" ++ String.ofList deviceId ++ ".0"))
    | _ => .err (.errorCode ("Expected an entry for bus in " ++ bridgeBusPath ++ ", got " ++
        toString files.length ++ " entries instead"))
  | _ => .err (.errorCode
      ("PCI Identifier for device should be of format [bridgeAddr/deviceAddr], got " ++ pciId))

/-- The loop over the SCSI hosts. -/
def scanHosts (g : Sysfs) (scanData : String) : List String → Outcome ErrorKind Unit
  | [] => .ok ()
  | host :: hosts => do
    g.write (scsiHostPath ++ "/" ++ host ++ "/scan") scanData
    scanHosts g scanData hosts

def scanScsiBus (g : Sysfs) (scsiAddr : String) : Outcome ErrorKind Unit :=
  match scsiAddr.toList.splitOn ':' with
  | [id, lun] => do
    let hosts ← g.readDir scsiHostPath
    scanHosts g ("0 " ++ String.ofList id ++ " " ++ String.ofList lun) hosts
  | _ => .err (.msg
      ("Unexpected format for SCSI Address: " ++ scsiAddr ++ ", expect SCSIID:LUA"))

/-- The callers of `get_device_name`, `get_pci_device_name` and `get_scsi_device_name`. -/
inductive DeviceRequest where
  | pci (pciId : String)
  | scsi (scsiAddr : String)
  deriving DecidableEq, Repr

/-- The address that a caller passes on. -/
def DeviceRequest.devAddr (g : Sysfs) : DeviceRequest → Outcome ErrorKind String
  | .pci pciId => do
    let pciAddr ← getDevicePciAddress g pciId
    g.rescanPciBus
    .ok pciAddr
  | .scsi scsiAddr => do
    scanScsiBus g scsiAddr
    .ok (scsiHostChannel ++ scsiAddr ++ "/" ++ scsiBlockSuffix)

/-- `get_device_name` stops at this entry of the map and returns its name. -/
def Hotplug.AnswersFrom (s : Hotplug) (devAddr key : String) : Prop :=
  s.finds devAddr (some key) ∧ s.devName (some key) ≠ ""

/-- For SCSI, `host:channel:target:lun` is a component of the path before `block`. -/
def DeviceRequest.Complete (key : String) : DeviceRequest → Prop
  | .pci _ => True
  | .scsi scsiAddr =>
    Consecutive '/' (scsiHostChannel ++ scsiAddr).toList scsiBlockSuffix.toList key.toList

def eventFirst (c : CallId) (devAddr : String) (event : Uevent) : List HotplugAction :=
  [.begin event [], .release, .lookup c devAddr (some event.devpath)]

def callFirst (c : CallId) (devAddr : String) (event : Uevent) : List HotplugAction :=
  [.lookup c devAddr none, .begin event [devAddr], .send, .remove, .release, .receive c]

/-- Nobody waits, and the map has no answer for the address yet. -/
structure Hotplug.Unasked (s : Hotplug) (c : CallId) (devAddr : String) : Prop where
  idle : s.thread = .idle
  watcher : s.watcher = ∅
  fresh : c ∉ s.calls
  finds : s.finds devAddr none

/-- A call that the event precedes returns what it returns when it precedes the event. -/
def OrderFree (arch : TargetArch) (devAddr : String) (event : Uevent) : Prop :=
  ∀ s c t, s.Unasked c devAddr → (hotplug arch).run s (eventFirst c devAddr event) = some t →
    ∃ u, (hotplug arch).run s (callFirst c devAddr event) = some u ∧
      u.calls.lookup c = t.calls.lookup c

/-- The entry's path also selects a waiting call for the address, and it is the path of the
disk that was asked for. -/
structure DeviceRequest.Entitled (arch : TargetArch) (request : DeviceRequest)
    (devAddr key : String) : Prop where
  accepted : watcherAccepts arch key devAddr
  complete : request.Complete key
  orderFree : ∀ event : Uevent, event.devpath = key → OrderFree arch devAddr event

/-- The address lies directly below the root bus, or begins a component of the path. -/
def DeviceRequest.Anchored (arch : TargetArch) (devAddr key : String) : DeviceRequest → Prop
  | .pci _ => startsWith key (rootBusPath arch ++ "/" ++ devAddr)
  | .scsi scsiAddr =>
    '/' ∉ scsiAddr.toList ∧ (startsWith key devAddr ∨ contains key ("/" ++ devAddr))

theorem Hotplug.AnswersFrom.lookup {s : Hotplug} (h : s.AnswersFrom devAddr key)
    (ht : s.thread = .idle) (hc : c ∉ s.calls) :
    s.lookupOrRegister c devAddr (some key) = some (s.setCall c
      ⟨devAddr, [], .returned (.ok (deviceNode (s.devName (some key)))), []⟩) := by
  rw [Hotplug.lookupOrRegister, if_pos ⟨ht, hc, h.1⟩, if_neg h.2]

theorem Hotplug.begin_announced {s : Hotplug} (ht : s.thread = .idle)
    (ha : event.announced arch) (hn : order.Nodup)
    (ho : order.toFinset = s.interested arch event) :
    s.begin arch event order = some { s with
      pciDeviceMap := s.pciDeviceMap.insert event.devpath event.devname
      thread := .notifying event order order } := by
  rw [Hotplug.begin, if_pos ht, if_pos ha, if_pos ⟨hn, ho⟩]

/-- The call that waits alone is the one whose address the path of the event selects. -/
theorem Hotplug.interested_alone {s : Hotplug} (h : watcherAccepts arch event.devpath devAddr)
    (hw : s.watcher = Finmap.insert devAddr c ∅) :
    [devAddr].toFinset = s.interested arch event := by
  ext a
  rw [List.mem_toFinset, List.mem_singleton, Hotplug.interested, hw, Finset.mem_filter,
    Finmap.mem_keys, Finmap.mem_insert]
  constructor
  · intro ha
    rw [ha]
    exact ⟨.inl rfl, h⟩
  · intro ha
    exact ha.1.resolve_right (Finmap.notMem_empty)

theorem Hotplug.Unasked.returns (h : s.Unasked c devAddr)
    (ht : (hotplug arch).run s (eventFirst c devAddr event) = some t) :
    event.announced arch ∧
      t.calls.lookup c = some ⟨devAddr, [], .returned (.ok (deviceNode event.devname)), []⟩ := by
  obtain ⟨s₁, h₁, ht⟩ := Option.bind_eq_some_iff.1 ht
  obtain ⟨s₂, h₂, ht⟩ := Option.bind_eq_some_iff.1 ht
  obtain ⟨s₃, h₃, ht⟩ := Option.bind_eq_some_iff.1 ht
  cases ht
  cases Hotplug.step_effect h₁ with
  | announce _ ha =>
    apply And.intro ha
    cases Hotplug.step_effect h₂ with
    | release hr =>
      cases hr
      cases Hotplug.step_effect h₃ with
      | answer _ _ hk =>
        rw [Table.lookup_insert, if_pos rfl] at hk
        cases hk
        rw [Hotplug.lookup_setCall, if_pos rfl]
      | register _ _ _ hn =>
        have hname : event.devname = "" := by
          rw [← hn]
          simp only [Hotplug.devName, Option.bind_some, Table.lookup_insert, if_pos,
            Option.getD_some]
        exact absurd hname ha.1
  | skip =>
    cases Hotplug.step_effect h₂ with
    | release hr => cases h.idle.symm.trans hr

theorem Hotplug.receive_notified {s t : Hotplug}
    (h : s.calls.lookup c = some ⟨devAddr, [], .waiting, []⟩) (name : String)
    (ht : t.calls = s.calls.update c fun call => call.notify name) :
    t.receive c = some (t.setCall c ⟨devAddr, [], .returned (.ok (deviceNode name)), []⟩) := by
  have hc : t.calls.lookup c = some ⟨devAddr, [name], .waiting, []⟩ := by
    rw [ht, Table.lookup_update, if_pos rfl, h]
    rfl
  simp only [Hotplug.receive, hc]

/-- The event is told to the only call that waits, and this call returns. -/
theorem Hotplug.wakes {s : Hotplug} (ht : s.thread = .idle)
    (hw : s.watcher = Finmap.insert devAddr c ∅)
    (hc : s.calls.lookup c = some ⟨devAddr, [], .waiting, []⟩) (ha : event.announced arch)
    (h : watcherAccepts arch event.devpath devAddr) :
    ∃ u, (hotplug arch).run s [.begin event [devAddr], .send, .remove, .release, .receive c] =
        some u ∧
      u.calls.lookup c = some ⟨devAddr, [], .returned (.ok (deviceNode event.devname)), []⟩ := by
  have hbegin := Hotplug.begin_announced ht ha (List.nodup_singleton devAddr)
    (Hotplug.interested_alone h hw)
  have hwatcher : s.watcher.lookup devAddr = some c := by
    rw [hw]
    exact Finmap.lookup_insert _
  have hsend : Hotplug.send { s with
        pciDeviceMap := s.pciDeviceMap.insert event.devpath event.devname
        thread := .notifying event [devAddr] [devAddr] } = some { s with
      pciDeviceMap := s.pciDeviceMap.insert event.devpath event.devname
      calls := s.calls.update c fun call => call.notify event.devname
      thread := .notifying event [] [devAddr] } := by
    simp only [Hotplug.send, hwatcher]
  have hreceive := Hotplug.receive_notified hc event.devname (t := { s with
    pciDeviceMap := s.pciDeviceMap.insert event.devpath event.devname
    watcher := s.watcher.erase devAddr
    calls := s.calls.update c fun call => call.notify event.devname
    thread := .idle
    processed := s.processed ++ [event] }) rfl
  refine ⟨_, Option.bind_eq_some_iff.2 ⟨_, hbegin, Option.bind_eq_some_iff.2 ⟨_, hsend,
    Option.bind_eq_some_iff.2 ⟨_, rfl, Option.bind_eq_some_iff.2 ⟨_, rfl,
      Option.bind_eq_some_iff.2 ⟨_, hreceive, rfl⟩⟩⟩⟩⟩, ?_⟩
  rw [Hotplug.lookup_setCall, if_pos rfl]

theorem Hotplug.Unasked.woken (h : s.Unasked c devAddr) (ha : event.announced arch)
    (hw : watcherAccepts arch event.devpath devAddr) :
    ∃ u, (hotplug arch).run s (callFirst c devAddr event) = some u ∧
      u.calls.lookup c = some ⟨devAddr, [], .returned (.ok (deviceNode event.devname)), []⟩ := by
  have hn : s.devName none = "" := rfl
  have hregister : s.lookupOrRegister c devAddr none =
      some (Hotplug.setCall { s with watcher := Finmap.insert devAddr c ∅ } c
        ⟨devAddr, [], .waiting, []⟩) := by
    rw [Hotplug.lookupOrRegister, if_pos ⟨h.idle, h.fresh, h.finds⟩, if_pos hn, h.watcher]
  generalize hs₁ : Hotplug.setCall { s with watcher := Finmap.insert devAddr c ∅ } c
    ⟨devAddr, [], .waiting, []⟩ = s₁ at hregister
  have hidle : s₁.thread = .idle := hs₁ ▸ h.idle
  have hwatcher : s₁.watcher = Finmap.insert devAddr c ∅ := hs₁ ▸ rfl
  have hcall : s₁.calls.lookup c = some ⟨devAddr, [], .waiting, []⟩ := by
    rw [← hs₁, Hotplug.lookup_setCall, if_pos rfl]
  obtain ⟨u, hu, hr⟩ := Hotplug.wakes hidle hwatcher hcall ha hw
  exact ⟨u, Option.bind_eq_some_iff.2 ⟨_, hregister, hu⟩, hr⟩

/-- A path that selects a waiting call wakes it with the name that the map would answer. -/
theorem watcherAccepts.orderFree (h : watcherAccepts arch event.devpath devAddr) :
    OrderFree arch devAddr event := by
  intro s c t hs ht
  obtain ⟨ha, hc⟩ := hs.returns ht
  obtain ⟨u, hu, hr⟩ := hs.woken ha h
  exact ⟨u, hu, hr.trans hc.symm⟩

theorem getDevicePciAddress_ok (h : getDevicePciAddress g pciId = .ok devAddr) :
    endsWith devAddr ".0" := by
  rw [getDevicePciAddress.eq_def] at h
  split at h
  · obtain ⟨files, _, h⟩ := Outcome.bind_eq_ok.1 h
    split at h
    · cases h
      rw [endsWith]
      simp only [String.toList_append]
      exact (List.suffix_append _ _).trans (List.suffix_append _ _)
    · cases h
  · cases h

/-- No PCI address is taken for a SCSI one. -/
theorem not_endsWith_block (h : endsWith devAddr ".0") : ¬endsWith devAddr scsiBlockSuffix := by
  intro hb
  have hs := List.suffix_of_suffix_length_le h hb (by decide)
  exact absurd hs (by decide)

theorem DeviceRequest.complete_iff_anchored (scsiAddr key : String) :
    (DeviceRequest.scsi scsiAddr).Complete key ↔
      '/' ∉ scsiAddr.toList ∧
        (startsWith key (scsiHostChannel ++ scsiAddr ++ "/" ++ scsiBlockSuffix) ∨
          contains key ("/" ++ (scsiHostChannel ++ scsiAddr ++ "/" ++ scsiBlockSuffix))) := by
  have hchannel : '/' ∉ scsiHostChannel.toList := by decide
  have hslash : "/".toList = ['/'] := rfl
  rw [DeviceRequest.Complete, consecutive_iff (by decide)]
  simp only [startsWith, contains, String.toList_append, List.mem_append, hchannel, false_or,
    hslash, List.append_assoc, List.cons_append, List.nil_append]

theorem entitled_iff_anchored {request : DeviceRequest} (h : request.devAddr g = .ok devAddr)
    (hm : contains key devAddr) :
    request.Entitled arch devAddr key ↔ request.Anchored arch devAddr key := by
  cases request with
  | pci pciId =>
    obtain ⟨addr, ha, h⟩ := Outcome.bind_eq_ok.1 h
    obtain ⟨_, _, h⟩ := Outcome.bind_eq_ok.1 h
    cases h
    have hb := not_endsWith_block (getDevicePciAddress_ok ha)
    constructor
    · intro he
      exact he.accepted.resolve_right fun hs => hb hs.1
    · intro hs
      have hw : watcherAccepts arch key devAddr := .inl hs
      exact ⟨hw, trivial, fun _ he => watcherAccepts.orderFree (he ▸ hw)⟩
  | scsi scsiAddr =>
    obtain ⟨_, _, h⟩ := Outcome.bind_eq_ok.1 h
    cases h
    constructor
    · intro he
      exact (DeviceRequest.complete_iff_anchored scsiAddr key).1 he.complete
    · intro hs
      have hw : watcherAccepts arch key
          (scsiHostChannel ++ scsiAddr ++ "/" ++ scsiBlockSuffix) := by
        apply Or.inr
        apply And.intro _ hm
        rw [endsWith, String.toList_append]
        exact List.suffix_append _ _
      exact ⟨hw, (DeviceRequest.complete_iff_anchored scsiAddr key).2 hs,
        fun _ he => watcherAccepts.orderFree (he ▸ hw)⟩

theorem Hotplug.answersFrom_iff {s : Hotplug} : s.AnswersFrom devAddr key ↔
    ∃ name, s.pciDeviceMap.lookup key = some name ∧ name ≠ "" ∧ contains key devAddr := by
  constructor
  · rintro ⟨⟨hk, hm⟩, hn⟩
    obtain ⟨name, hl⟩ := Table.mem_keys_iff.1 hk
    rw [Hotplug.devName, Option.bind_some, hl, Option.getD_some] at hn
    exact ⟨name, hl, hn, hm⟩
  · rintro ⟨name, hl, hn, hm⟩
    apply And.intro ⟨Table.mem_keys_iff.2 ⟨name, hl⟩, hm⟩
    rwa [Hotplug.devName, Option.bind_some, hl, Option.getD_some]

/-- Every answer from the map is one that a waiting call would get, and of the disk that was
asked for, if and only if each named path that contains the address has it at an anchor. -/
theorem getDeviceName_entitled_iff (arch : TargetArch) (g : Sysfs) (request : DeviceRequest)
    (devAddr : String) (s : Hotplug) (h : request.devAddr g = .ok devAddr) :
    (∀ key, s.AnswersFrom devAddr key → request.Entitled arch devAddr key) ↔
      ∀ key name, s.pciDeviceMap.lookup key = some name → name ≠ "" → contains key devAddr →
        request.Anchored arch devAddr key := by
  constructor
  · intro he key name hk hn hm
    exact (entitled_iff_anchored h hm).1 (he key (Hotplug.answersFrom_iff.2 ⟨name, hk, hn, hm⟩))
  · intro ha key hk
    obtain ⟨name, hk, hn, hm⟩ := Hotplug.answersFrom_iff.1 hk
    exact (entitled_iff_anchored h hm).2 (ha key name hk hn hm)

def oneBus : Sysfs where
  readDir _ := .ok ["0000:01"]
  write _ _ := .ok ()

/-- A guest with one disk in its device map. -/
def knownDisk (key name : String) : Hotplug :=
  { Hotplug.empty with pciDeviceMap := Finmap.insert key name ∅ }

def firstHost : Hotplug :=
  knownDisk "/devices/pci0000:00/0000:00:03.0/host0/0:0:0:1/block/sda" "sda"

theorem getDeviceName_entitled_iff_firstHost :
    (∀ key, firstHost.AnswersFrom "0:0:0:1/block" key →
        (DeviceRequest.scsi "0:1").Entitled .x86 "0:0:0:1/block" key) ↔
      ∀ key name, firstHost.pciDeviceMap.lookup key = some name → name ≠ "" →
        contains key "0:0:0:1/block" →
          (DeviceRequest.scsi "0:1").Anchored .x86 "0:0:0:1/block" key :=
  getDeviceName_entitled_iff .x86 oneBus (.scsi "0:1") "0:0:0:1/block" firstHost rfl

/-- A bridge behind a bridge is found in the map but wakes no call, and the SCSI address of
host 0 is found in the path of a disk of host 10. -/
theorem getDeviceName_not_entitled :
    (¬ ∀ g pciId devAddr s key, (DeviceRequest.pci pciId).devAddr g = .ok devAddr →
      Hotplug.AnswersFrom s devAddr key → watcherAccepts .x86 key devAddr) ∧
    ¬ ∀ g scsiAddr devAddr s key, (DeviceRequest.scsi scsiAddr).devAddr g = .ok devAddr →
      Hotplug.AnswersFrom s devAddr key → (DeviceRequest.scsi scsiAddr).Complete key := by
  constructor
  · intro h
    let key := "/devices/pci0000:00/0000:00:01.0/0000:00:02.0/0000:01:03.0/virtio2/block/vda"
    have hs : (knownDisk key "vda").AnswersFrom "0000:00:02.0/0000:01:03.0" key := by
      apply Hotplug.answersFrom_iff.2
      exact ⟨"vda", Finmap.lookup_insert _, by decide, by decide⟩
    have hw := h oneBus "02/03" _ _ key rfl hs
    exact absurd hw (by decide)
  · intro h
    let key := "/devices/pci0000:00/0000:00:03.0/host10/10:0:0:1/block/sdb"
    have hs : (knownDisk key "sdb").AnswersFrom "0:0:0:1/block" key := by
      apply Hotplug.answersFrom_iff.2
      exact ⟨"sdb", Finmap.lookup_insert _, by decide, by decide⟩
    have hc := (DeviceRequest.complete_iff_anchored "0:1" key).1 (h oneBus "0:1" _ _ key rfl hs)
    exact absurd hc.2 (by decide)

end KataAgent
