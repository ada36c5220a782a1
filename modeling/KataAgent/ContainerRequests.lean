import KataAgent.DeviceUpdate
import KataAgent.StorageHandling

namespace KataAgent
open Fallible
set_option autoImplicit true

structure CreateContainerRequest where
  containerId : String
  execId : String
  devices : List Device
  storages : List Storage
  oci : Option Spec
  /-- A message has fewer than `2 ^ 32` bytes, and every entry takes some. -/
  bounded : storages.length < 2 ^ 32

structure RemoveContainerRequest where
  containerId : String
  timeout : UInt32

/-- What the guest answers to one create request. -/
structure CreateGuest where
  rescan : Option ErrorKind
  devices : DeviceGuest
  storages : Nat → StorageGuest
  /-- The parent of the canonical path, when it has one and that is Unicode. -/
  bundlePath : String → Outcome ErrorKind (Option String)
  chdir : Option Errno
  validate : Outcome ErrorKind Unit
  /-- Whether a failing `create_dir_all` of the container's root finds that it exists. -/
  createRoot : Option Bool
  chown : Option Errno
  cgroupManager : Outcome ErrorKind Unit
  newProcess : Outcome ErrorKind Unit
  /-- An `exec.fifo` that no earlier request made. -/
  fifoExists : Bool
  mkfifo : Option Errno
  /-- How `start` ends in the agent after the fifo was made. -/
  startRest : Outcome ErrorKind Unit

/-- What the guest answers to one remove request. -/
structure RemoveGuest where
  destroy : Outcome ErrorKind Unit
  /-- The thread that destroys the container reports before the timeout. -/
  inTime : Bool
  /-- Refusals of the `umount` calls on the recorded mounts. -/
  refused : Nat → Option Errno
  /-- Refusals of the `umount` calls on the released storages. -/
  releaseRefused : Nat → Option Errno
  removeDir : Nat → Option ErrorKind

def updateNamespace (sb : Sandbox) (ns : LinuxNamespace) : LinuxNamespace :=
  if ns.type = "pid" then ns
  else if ns.type = "ipc" then { ns with path := sb.sharedIpcns }
  else if ns.type = "uts" then { ns with path := sb.sharedUtsns }
  else ns

def updateContainerNamespaces (sb : Sandbox) (spec : Spec) : Outcome ErrorKind Spec :=
  match spec.linux with
  | none => .err (.errorCode "Spec didn't container linux field")
  | some linux =>
    let pidNs := linux.namespaces.any (·.type = "pid")
    let namespaces := linux.namespaces.map (updateNamespace sb)
    .ok { spec with linux := some { linux with
      namespaces := if !pidNs && !sb.sandboxPidNs then namespaces ++ [⟨"pid", ""⟩]
        else namespaces } }

/-- The written `config.json` is read by hooks only, and its failure is ignored; without a
process the log line before it unwinds. -/
def setupBundle (g : CreateGuest) (spec : Spec) : Outcome ErrorKind Unit :=
  match spec.root with
  | none => .err (.nix .EINVAL)
  | some root => do
    match ← g.bundlePath root.path with
    | none => .panic
    | some _ => if spec.process.isNone then .panic else syscall g.chdir

def containerBase : String := "/run/agent"

def newLinuxContainer (g : CreateGuest) (id : String) (noPivotRoot : Bool) (spec : Spec) :
    Outcome ErrorKind Container := do
  g.validate
  match g.createRoot with
  | some true => .err (.msg ("container " ++ id ++ " already exists"))
  | some false =>
    .err (.msg ("fail to create container directory " ++ containerBase ++ "/" ++ id))
  | none => do
    .ofFault (g.chown.map fun _ => .msg ("cannot change onwer of container " ++ id ++ " root"))
    if spec.linux.isNone then .err (.nix .EINVAL)
    else do
      g.cgroupManager
      .ok ⟨id, noPivotRoot, spec, some "stopped"⟩

/-- `LinuxContainer::start` of an init process, in the agent. -/
def startContainer (g : CreateGuest) (ctr : Container) : Act Agent ErrorKind Container := do
  let fifos ← Act.read Agent.fifos
  if ctr.id ∈ fifos ∨ g.fifoExists then Act.fail (.errorCode "exec fifo exists")
  else do
    Act.lift (syscall g.mkfifo)
    Act.modify fun s => { s with fifos := insert ctr.id s.fifos }
    Act.lift g.startRest
    pure { ctr with status := some "created" }

def Sandbox.recordMounts (cid : String) (m : List String) (sb : Sandbox) : Sandbox :=
  { sb with containerMounts := sb.containerMounts.insert cid m }

def Sandbox.addContainer (ctr : Container) (sb : Sandbox) : Sandbox :=
  { sb with containers := sb.containers.insert ctr.id ctr }

/-- The steps between the record of the mounts and the start; only the guest's files change. -/
def buildContainer (g : CreateGuest) (cid : String) (sb : Sandbox) (oci : Spec) :
    Outcome ErrorKind Container := do
  let oci ← updateContainerNamespaces sb oci
  setupBundle g oci
  let ctr ← newLinuxContainer g cid sb.noPivotRoot oci
  if oci.process.isSome then do
    g.newProcess
    .ok ctr
  else .err (.nix .EINVAL)

/-- What `do_create_container` does under the mutex once its storages are there. -/
def finishCreate (g : CreateGuest) (cid : String) (m : List String) (oci : Spec) :
    Act Agent ErrorKind Unit := do
  Act.modify (Agent.onSandbox (Sandbox.recordMounts cid m))
  let sb ← Act.read Agent.sandbox
  let ctr ← Act.lift (buildContainer g cid sb oci)
  let ctr ← startContainer g ctr
  Act.modify (Agent.onSandbox (Sandbox.addContainer ctr))

def rescanPciBus (g : CreateGuest) : Outcome ErrorKind Unit :=
  .ofFault (g.rescan.map fun _ => .msg "Could not rescan PCI bus")

def doCreateContainer (req : CreateContainerRequest) (g : CreateGuest) :
    Act Agent ErrorKind Unit :=
  match req.oci with
  | none => Act.unwind
  | some oci => do
    Act.lift (rescanPciBus g)
    let oci ← Act.lift (addDevices g.devices req.devices oci)
    let m ← addStorages g.storages req.storages
    locked (finishCreate g req.containerId m oci)

def Sandbox.setStatus (cid : String) (status : String) (sb : Sandbox) : Sandbox :=
  { sb with containers := sb.containers.update cid fun ctr => { ctr with status := some status } }

/-- `get_container(cid).unwrap()` and `destroy`. -/
def destroyContainer (g : RemoveGuest) (cid : String) : Act Agent ErrorKind Unit := do
  let found ← Act.read fun s => s.sandbox.containers.lookup cid
  if found.isNone then Act.unwind
  else do
    Act.lift g.destroy
    Act.modify (Agent.onSandbox (Sandbox.setStatus cid "stopped"))

/-- `umount(2)`, which follows the path, and which the kernel may refuse even where something is
mounted. -/
def umount (fault : Option Errno) (path : String) : Act Agent ErrorKind Unit := fun s =>
  match fault with
  | some e => (.err (.nix e), s)
  | none =>
    if s.place path ∈ s.mounts then
      (.ok (), { s with
        mounts := s.mounts.erase (s.place path)
        detached := s.detached ++ [s.place path] })
    else (.err (.nix .EINVAL), s)

def removeMounts (refused : Nat → Option Errno) : List String → Act Agent ErrorKind Unit
  | [] => pure ()
  | m :: mounts => do
    umount (refused 0) m
    removeMounts (fun n => refused (n + 1)) mounts

def removeSandboxStorage (refused : Option Errno) (removeDir : Option ErrorKind) (path : String) :
    Act Agent ErrorKind Unit := do
  removeMounts (fun _ => refused) [path]
  Act.lift (.ofFault removeDir)
  Act.modify fun s => { s with detached := s.detached ++ [s.place path] }

/-- `unset_sandbox_storage` of the locked sandbox. -/
def uncountStorage (path : String) : Act Agent ErrorKind Bool := fun s =>
  let r := s.sandbox.unsetSandboxStorage path
  (.ok r.1, s.setSandbox r.2)

def unsetAndRemoveSandboxStorage (refused : Option Errno) (removeDir : Option ErrorKind)
    (path : String) : Act Agent ErrorKind Unit := do
  if ← uncountStorage path then removeSandboxStorage refused removeDir path else pure ()

/-- The loop over `cmounts`. -/
def releaseStorages (g : RemoveGuest) : Nat → List String → Act Agent ErrorKind Unit
  | _, [] => pure ()
  | n, m :: cmounts => do
    unsetAndRemoveSandboxStorage (g.releaseRefused n) (g.removeDir n) m
    releaseStorages g (n + 1) cmounts

/-- Unmount what the container's create recorded; the recorded sandbox storages are returned. -/
def detachMounts (g : RemoveGuest) (cid : String) : Act Agent ErrorKind (List String) := do
  match ← Act.read fun s => s.sandbox.containerMounts.lookup cid with
  | none => pure []
  | some mounts => do
    removeMounts g.refused mounts
    Act.read fun s => mounts.filter (· ∈ s.sandbox.storages)

def Sandbox.forget (cid : String) (sb : Sandbox) : Sandbox :=
  { sb with
    containerMounts := sb.containerMounts.erase cid
    containers := sb.containers.erase cid }

def releaseContainer (g : RemoveGuest) (cid : String) : Act Agent ErrorKind Unit := do
  let cmounts ← detachMounts g cid
  releaseStorages g 0 cmounts
  Act.modify (Agent.onSandbox (Sandbox.forget cid))

/-- The thread that destroys the container, seen from the receiver of its report: when it
unwinds, the channel is closed; when it is late, its own send fails and unwinds under the
mutex. After a report it has nothing left that could fail. -/
def destroyInTime (g : RemoveGuest) (cid : String) : Act Agent ErrorKind Unit := fun s =>
  match locked (destroyContainer g cid).unwrap s with
  | (.ok (), t) =>
    if g.inTime then (.ok (), t) else (.err (.nix .ETIME), { t with poisoned := true })
  | (_, t) => (.err (.nix .ETIME), t)

def doRemoveContainer (req : RemoveContainerRequest) (g : RemoveGuest) :
    Act Agent ErrorKind Unit :=
  if req.timeout = 0 then
    locked do
      destroyContainer g req.containerId
      releaseContainer g req.containerId
  else do
    destroyInTime g req.containerId
    locked (releaseContainer g req.containerId)

section
variable {g : CreateGuest} {req : CreateContainerRequest} {cid : String} {m : List String}
  {oci : Spec} {ctr : Container} {s t : Agent}

theorem newLinuxContainer_id (h : newLinuxContainer g cid noPivotRoot oci = .ok ctr) :
    ctr.id = cid := by
  obtain ⟨_, -, h⟩ := Outcome.bind_eq_ok.1 h
  split at h
  · cases h
  · cases h
  · obtain ⟨_, -, h⟩ := Outcome.bind_eq_ok.1 h
    split at h
    · cases h
    · obtain ⟨_, -, h⟩ := Outcome.bind_eq_ok.1 h
      cases h
      rfl

theorem startContainer_ok (h : startContainer g ctr s = (.ok ctr', t)) :
    ctr'.id = ctr.id ∧ ctr.id ∉ s.fifos ∧ t = { s with fifos := insert ctr.id s.fifos } := by
  obtain ⟨fifos, u, hf, h⟩ := Act.bind_eq_ok.1 h
  cases hf
  split at h
  · cases h
  · rename_i hn
    obtain ⟨_, u, hk, h⟩ := Act.bind_eq_ok.1 h
    cases (Prod.mk.inj hk).2
    obtain ⟨_, v, hv, h⟩ := Act.bind_eq_ok.1 h
    cases hv
    obtain ⟨_, w, hw, h⟩ := Act.bind_eq_ok.1 h
    cases (Prod.mk.inj hw).2
    cases h
    exact ⟨rfl, fun hm => hn (.inl hm), rfl⟩

/-- A start, however it ends, touches nothing but the fifos. -/
theorem startContainer_preserves {I : Agent → Prop}
    (hf : ∀ s id, I s → I { s with fifos := insert id s.fifos }) (g : CreateGuest)
    (ctr : Container) : Act.Preserves I (startContainer g ctr) := by
  refine .bind (.read Agent.fifos) fun fifos => ?_
  split
  · exact .lift _
  · refine .bind (.lift _) fun _ => ?_
    refine .bind (.modify fun s => hf s _) fun _ => ?_
    exact .bind (.lift _) fun _ => .pure _

theorem buildContainer_id (h : buildContainer g cid sb oci = .ok ctr) : ctr.id = cid := by
  obtain ⟨oci', -, h⟩ := Outcome.bind_eq_ok.1 h
  obtain ⟨_, -, h⟩ := Outcome.bind_eq_ok.1 h
  obtain ⟨ctr', hn, h⟩ := Outcome.bind_eq_ok.1 h
  split at h
  · obtain ⟨_, -, h⟩ := Outcome.bind_eq_ok.1 h
    cases h
    exact newLinuxContainer_id hn
  · cases h

theorem finishCreate_ok (h : finishCreate g cid m oci s = (.ok (), t)) :
    ∃ ctr, ctr.id = cid ∧ cid ∉ s.fifos ∧ t = { s with
      sandbox := (s.sandbox.recordMounts cid m).addContainer ctr
      fifos := insert cid s.fifos } := by
  obtain ⟨_, u, hu, h⟩ := Act.bind_eq_ok.1 h
  cases hu
  obtain ⟨sb, u, hu, h⟩ := Act.bind_eq_ok.1 h
  cases hu
  obtain ⟨ctr, u, hu, h⟩ := Act.bind_eq_ok.1 h
  obtain ⟨hb, rfl⟩ := Prod.mk.inj hu
  have hid := buildContainer_id hb
  obtain ⟨ctr', u, hu, h⟩ := Act.bind_eq_ok.1 h
  obtain ⟨hid', hn, ht⟩ := startContainer_ok hu
  cases h
  rw [hid] at hn hid' ht
  exact ⟨ctr', hid', hn, by rw [ht]; rfl⟩

theorem finishCreate_err (h : finishCreate g cid m oci s = (.err e, t)) :
    t.sandbox = s.sandbox.recordMounts cid m ∧ t.mounts = s.mounts := by
  obtain hu | ⟨_, u, hu, h⟩ := Act.bind_eq_err.1 h
  · cases hu
  cases hu
  obtain hu | ⟨sb, u, hu, h⟩ := Act.bind_eq_err.1 h
  · cases hu
  cases hu
  obtain hu | ⟨ctr, u, hu, h⟩ := Act.bind_eq_err.1 h
  · cases (Prod.mk.inj hu).2
    exact ⟨rfl, rfl⟩
  cases (Prod.mk.inj hu).2
  obtain hu | ⟨ctr', u, hu, h⟩ := Act.bind_eq_err.1 h
  · have hk := startContainer_preserves (I := fun u =>
      u.sandbox = s.sandbox.recordMounts cid m ∧ u.mounts = s.mounts) (fun _ _ h => h) g ctr
      (s.onSandbox (.recordMounts cid m)) ⟨rfl, rfl⟩
    rwa [hu] at hk
  · cases h

/-- A property of the agent that is not about its containers, their mounts and fifos. -/
structure Agent.Indifferent (I : Agent → Prop) : Prop where
  poison : ∀ s b, I s → I { s with poisoned := b }
  record : ∀ s cid m, I s → I (s.onSandbox (.recordMounts cid m))
  add : ∀ s ctr, I s → I (s.onSandbox (.addContainer ctr))
  fifos : ∀ s id, I s → I { s with fifos := insert id s.fifos }

theorem finishCreate_preserves {I : Agent → Prop} (hI : Agent.Indifferent I) :
    Act.Preserves I (finishCreate g cid m oci) := by
  refine .bind (.modify fun s => hI.record s cid m) fun _ => ?_
  refine .bind (.read Agent.sandbox) fun _ => ?_
  refine .bind (.lift _) fun ctr => ?_
  refine .bind (startContainer_preserves hI.fifos g ctr) fun _ => ?_
  exact .modify fun s => hI.add s _

/-- Nothing that a create does once its storages are there fails. -/
structure CreateGuest.Completes (g : CreateGuest) (s : Agent) (cid : String) (oci : Spec) :
    Prop where
  linux : oci.linux.isSome
  bundle : ∃ root dir, oci.root = some root ∧ g.bundlePath root.path = .ok (some dir)
  process : oci.process.isSome
  chdir : g.chdir = none
  validate : g.validate = .ok ()
  createRoot : g.createRoot = none
  chown : g.chown = none
  cgroupManager : g.cgroupManager = .ok ()
  newProcess : g.newProcess = .ok ()
  noFifo : cid ∉ s.fifos ∧ g.fifoExists = false
  mkfifo : g.mkfifo = none
  startRest : g.startRest = .ok ()

theorem updateContainerNamespaces_ok (h : oci.linux.isSome) (sb : Sandbox) :
    ∃ oci', updateContainerNamespaces sb oci = .ok oci' ∧ oci'.root = oci.root ∧
      oci'.process = oci.process ∧ oci'.linux.isSome := by
  obtain ⟨linux, hl⟩ := Option.isSome_iff_exists.1 h
  rw [updateContainerNamespaces]
  rw [hl]
  exact ⟨_, rfl, rfl, rfl, rfl⟩

theorem CreateGuest.Completes.build (h : g.Completes s cid oci) (sb : Sandbox) :
    ∃ ctr, buildContainer g cid sb oci = .ok ctr := by
  obtain ⟨oci', ho, hr', hp', hl⟩ := updateContainerNamespaces_ok h.linux sb
  obtain ⟨root, dir, hr, hb⟩ := h.bundle
  obtain ⟨process, hp⟩ := Option.isSome_iff_exists.1 h.process
  obtain ⟨linux, hl⟩ := Option.isSome_iff_exists.1 hl
  rw [hr] at hr'
  rw [hp] at hp'
  have hbundle : setupBundle g oci' = .ok () := by
    simp [setupBundle, hr', hb, hp', syscall, Outcome.ofFault, h.chdir]
  have hnew : newLinuxContainer g cid sb.noPivotRoot oci' =
      .ok ⟨cid, sb.noPivotRoot, oci', some "stopped"⟩ := by
    simp [newLinuxContainer, h.validate, h.createRoot, h.chown, h.cgroupManager, hl,
      Outcome.ofFault]
  simp only [buildContainer, ho, hbundle, hnew, hp', h.newProcess, Outcome.ok_bind]
  exact ⟨_, rfl⟩

theorem CreateGuest.Completes.start (h : g.Completes s cid oci) (hid : ctr.id = cid)
    (hs : t.fifos = s.fifos) : ∃ ctr' u, startContainer g ctr t = (.ok ctr', u) := by
  have hn : ¬ (ctr.id ∈ t.fifos ∨ g.fifoExists) := by
    rw [hid, hs]
    simp [h.noFifo]
  apply Exists.intro { ctr with status := some "created" }
  apply Exists.intro { t with fifos := insert ctr.id t.fifos }
  rw [startContainer]
  rw [Act.bind_ok (Act.read_apply _), if_neg hn]
  simp [Act.bind_apply, syscall, Outcome.ofFault, h.mkfifo, h.startRest]

theorem finishCreate_completes (h : g.Completes s cid oci) :
    ∃ t, finishCreate g cid m oci s = (.ok (), t) := by
  let u := s.onSandbox (.recordMounts cid m)
  obtain ⟨ctr, hb⟩ := h.build u.sandbox
  obtain ⟨ctr', v, hs⟩ := h.start (t := u) (buildContainer_id hb) rfl
  apply Exists.intro (v.onSandbox (.addContainer ctr'))
  rw [finishCreate]
  rw [Act.bind_ok (Act.modify_apply _), Act.bind_ok (Act.read_apply _), hb,
    Act.bind_ok (Act.lift_apply _), Act.bind_ok hs]
  rfl

/-- The call gets to its storages. -/
def CreateContainerRequest.reachesStorages (req : CreateContainerRequest) (g : CreateGuest) :
    Prop :=
  g.rescan = none ∧ ∃ oci ∈ req.oci, (addDevices g.devices req.devices oci).isOk

theorem rescanPciBus_ok : rescanPciBus g = .ok () ↔ g.rescan = none := by
  simp [rescanPciBus]

theorem doCreateContainer_ok (h : doCreateContainer req g s = (.ok (), t)) :
    req.reachesStorages g ∧ ∃ m u ctr, addStorages g.storages req.storages s = (.ok m, u) ∧
      u.poisoned = false ∧ ctr.id = req.containerId ∧ req.containerId ∉ u.fifos ∧ t = { u with
        sandbox := (u.sandbox.recordMounts req.containerId m).addContainer ctr
        fifos := insert req.containerId u.fifos } := by
  rw [doCreateContainer] at h
  cases ho : req.oci with
  | none =>
    rw [ho] at h
    cases h
  | some oci =>
    rw [ho] at h
    obtain ⟨_, u, hu, h⟩ := Act.bind_eq_ok.1 h
    obtain ⟨hr, rfl⟩ := Prod.mk.inj hu
    obtain ⟨oci', u, hu, h⟩ := Act.bind_eq_ok.1 h
    obtain ⟨hd, rfl⟩ := Prod.mk.inj hu
    obtain ⟨m, u, hu, h⟩ := Act.bind_eq_ok.1 h
    obtain ⟨hp, h⟩ := locked_ok h
    obtain ⟨ctr, hid, hn, ht⟩ := finishCreate_ok h
    exact ⟨⟨rescanPciBus_ok.1 hr, oci, ho, by rw [hd]; rfl⟩, m, u, ctr, hu, hp, hid, hn, ht⟩

/-- A failing call either did nothing to the agent or failed at its storages or after them. -/
theorem doCreateContainer_err (h : doCreateContainer req g s = (.err e, t)) :
    (¬ req.reachesStorages g ∧ t = s) ∨
    (req.reachesStorages g ∧ (addStorages g.storages req.storages s = (.err e, t) ∨
      ∃ m u, addStorages g.storages req.storages s = (.ok m, u) ∧
        t.sandbox = u.sandbox.recordMounts req.containerId m ∧ t.mounts = u.mounts)) := by
  rw [doCreateContainer] at h
  cases ho : req.oci with
  | none =>
    rw [ho] at h
    cases h
  | some oci =>
    rw [ho] at h
    obtain hu | ⟨_, u, hu, h⟩ := Act.bind_eq_err.1 h
    · obtain ⟨hr, rfl⟩ := Prod.mk.inj hu
      refine .inl ⟨fun hk => ?_, rfl⟩
      rw [rescanPciBus_ok.2 hk.1] at hr
      cases hr
    obtain ⟨hr, rfl⟩ := Prod.mk.inj hu
    have hrescan := rescanPciBus_ok.1 hr
    obtain hu | ⟨oci', u, hu, h⟩ := Act.bind_eq_err.1 h
    · obtain ⟨hd, rfl⟩ := Prod.mk.inj hu
      refine .inl ⟨fun ⟨_, oci', ho', hk⟩ => ?_, rfl⟩
      cases ho.symm.trans ho'
      rw [hd] at hk
      cases hk
    obtain ⟨hd, rfl⟩ := Prod.mk.inj hu
    refine .inr ⟨⟨hrescan, oci, ho, by rw [hd]; rfl⟩, ?_⟩
    obtain hu | ⟨m, u, hu, h⟩ := Act.bind_eq_err.1 h
    · exact .inl hu
    · exact .inr ⟨m, u, hu, finishCreate_err (locked_err h).2⟩

/-- A call changes the rest of the agent only in its loop over the storages. -/
theorem doCreateContainer_preserves {I : Agent → Prop} (hI : Agent.Indifferent I) (hs : I s)
    (h : req.reachesStorages g → I (addStorages g.storages req.storages s).2) :
    I (doCreateContainer req g s).2 := by
  rw [doCreateContainer]
  cases ho : req.oci with
  | none => exact hs
  | some oci =>
    cases hrescan : rescanPciBus g with
    | err e => exact hs
    | panic => exact hs
    | ok _ =>
      dsimp only
      rw [Act.bind_ok (Act.lift_apply _)]
      cases hd : addDevices g.devices req.devices oci with
      | err e => exact hs
      | panic => exact hs
      | ok oci' =>
        have hu := h ⟨rescanPciBus_ok.1 hrescan, oci, ho, by rw [hd]; rfl⟩
        rw [Act.bind_ok (Act.lift_apply _)]
        rcases ha : addStorages g.storages req.storages s with ⟨r, u⟩
        rw [ha] at hu
        cases r with
        | err e => rwa [Act.bind_err ha]
        | panic => rwa [Act.bind_panic ha]
        | ok m =>
          rw [Act.bind_ok ha]
          exact locked_preserves hI.poison (finishCreate_preserves hI) u hu

/-- Nothing that a create does fails. -/
structure CreateContainerRequest.Completes (req : CreateContainerRequest) (g : CreateGuest)
    (s : Agent) : Prop where
  free : s.poisoned = false
  rescan : g.rescan = none
  storages : handledAll g.storages s.sandbox req.storages
  rest : ∃ oci oci', req.oci = some oci ∧ addDevices g.devices req.devices oci = .ok oci' ∧
    g.Completes s req.containerId oci'

theorem CreateContainerRequest.Completes.ok (h : req.Completes g s) :
    ∃ t, doCreateContainer req g s = (.ok (), t) := by
  obtain ⟨oci, oci', ho, hd, hc⟩ := h.rest
  obtain ⟨m, u, hu⟩ := addStorages_ok h.free h.storages
  have hk := addStorages_preserves (I := fun u => u.poisoned = s.poisoned ∧ u.fifos = s.fifos)
    (fun _ _ _ h => h) g.storages req.storages s ⟨rfl, rfl⟩
  rw [hu] at hk
  obtain ⟨hp, hf⟩ := hk
  have hc' : g.Completes u req.containerId oci' :=
    { hc with noFifo := ⟨by rw [hf]; exact hc.noFifo.1, hc.noFifo.2⟩ }
  obtain ⟨t, ht⟩ := finishCreate_completes (m := m) hc'
  apply Exists.intro t
  rw [doCreateContainer]
  rw [ho]
  apply (Act.bind_ok (t := s) (congrArg (·, s) (rescanPciBus_ok.2 h.rescan))).trans
  rw [hd, Act.bind_ok (Act.lift_apply _), Act.bind_ok hu]
  exact locked_apply (hp.trans h.free) ht nofun

end

end KataAgent
