import KataAgent.StorageReferences

namespace KataAgent
open Fallible Transition
set_option autoImplicit true

/-- The agent, and the containers whose directory exists under `CONTAINER_BASE`. -/
structure BaseRun where
  agent : Agent
  roots : Finset String

/-- `create_dir_all` accepts a directory that is there. -/
def CreateGuest.finds (g : CreateGuest) (root : Bool) : CreateGuest :=
  { g with createRoot := if root then none else g.createRoot }

/-- The spec that the request gets past its devices with. -/
def CreateContainerRequest.adapted (req : CreateContainerRequest) (g : CreateGuest) :
    Outcome ErrorKind Spec :=
  match req.oci with
  | none => .panic
  | some oci => do
    rescanPciBus g
    addDevices g.devices req.devices oci

/-- What comes before the root directory is made. -/
def prepareRoot (g : CreateGuest) (sb : Sandbox) (oci : Spec) : Outcome ErrorKind Unit := do
  let oci ← updateContainerNamespaces sb oci
  setupBundle g oci
  g.validate

def CreateContainerRequest.MakesRoot (req : CreateContainerRequest) (g : CreateGuest) (s : Agent) :
    Prop :=
  s.poisoned = false ∧ handledAll g.storages s.sandbox req.storages ∧
    (req.adapted g >>= prepareRoot g s.sandbox).isOk ∧ g.createRoot = none

/-- The call gets as far as to make the exec fifo. -/
def CreateContainerRequest.MakesFifo (req : CreateContainerRequest) (g : CreateGuest) (s : Agent) :
    Prop :=
  s.poisoned = false ∧ handledAll g.storages s.sandbox req.storages ∧
    (req.adapted g >>= buildContainer g req.containerId s.sandbox).isOk ∧
    req.containerId ∉ s.fifos ∧ g.fifoExists = false ∧ g.mkfifo = none

instance {req : CreateContainerRequest} {g : CreateGuest} {s : Agent} :
    Decidable (req.MakesRoot g s) := inferInstanceAs (Decidable (_ ∧ _))

instance {req : CreateContainerRequest} {g : CreateGuest} {s : Agent} :
    Decidable (req.MakesFifo g s) := inferInstanceAs (Decidable (_ ∧ _))

def BaseRun.guest (s : BaseRun) (req : CreateContainerRequest) (g : CreateGuest) : CreateGuest :=
  g.finds (req.containerId ∈ s.roots)

/-- How a create ends, and the agent after it. -/
def BaseRun.attempt (s : BaseRun) (req : CreateContainerRequest) (g : CreateGuest) :
    Outcome ErrorKind Unit × Agent :=
  doCreateContainer req (s.guest req g) s.agent

/-- No request removes a container's directory. -/
def baseRequests : System BaseRun SandboxRequest where
  init s := s.agent.sandbox.containers = ∅ ∧ s.agent.fifos = ∅ ∧ s.roots = ∅
  step s
    | .create req g => some {
        agent := (s.attempt req g).2
        roots := if req.MakesRoot (s.guest req g) s.agent then insert req.containerId s.roots
          else s.roots }
    | .remove req g => some { s with agent := (doRemoveContainer req g s.agent).2 }

/-- The state in which no earlier container left its fifo, its directory or its entries under this
id; the counters of the storages may be others. -/
def BaseRun.without (cid : String) (storages : Table String UInt32) (s : BaseRun) : BaseRun where
  agent := { s.agent with
    sandbox := { s.agent.sandbox.forget cid with storages := storages }
    fifos := s.agent.fifos.erase cid }
  roots := s.roots.erase cid

/-- A create for this id works if it would work without what is left of the earlier ones. -/
def BaseRun.Readmits (cid : String) (s : BaseRun) : Prop :=
  ∀ req g storages, req.containerId = cid → (∀ p ∈ storages, p ∈ s.agent.sandbox.storages) →
    ((s.without cid storages).attempt req g).1 = .ok () → (s.attempt req g).1 = .ok ()

/-- A create for this id fails before it makes the exec fifo. -/
def FailsEarly (cid : String) (s : BaseRun) : SandboxRequest → Prop
  | .create req g => req.containerId = cid → ¬ req.MakesFifo (s.guest req g) s.agent
  | .remove _ _ => True

variable {s t : Agent} {g : CreateGuest} {req : CreateContainerRequest} {cid : String}
  {sb sb' : Sandbox} {oci : Spec} {ctr : Container}

theorem doCreateContainer_eq (req : CreateContainerRequest) (g : CreateGuest) :
    doCreateContainer req g = (do
      let oci ← Act.lift (req.adapted g)
      let m ← addStorages g.storages req.storages
      locked (finishCreate g req.containerId m oci)) := by
  unfold doCreateContainer CreateContainerRequest.adapted
  cases req.oci with
  | none => rfl
  | some oci =>
    cases hr : rescanPciBus g with
    | ok _ => rfl
    | err e => rfl
    | panic => rfl

theorem startContainer_makes (hn : ctr.id ∉ s.fifos) (hf : g.fifoExists = false)
    (hm : g.mkfifo = none) : startContainer g ctr s =
      (g.startRest >>= fun _ => .ok { ctr with status := some "created" },
        { s with fifos := insert ctr.id s.fifos }) := by
  rw [startContainer]
  rw [Act.bind_ok (Act.read_apply _), if_neg (by simp [hn, hf]), hm]
  cases g.startRest with
  | ok _ => rfl
  | err e => rfl
  | panic => rfl

theorem startContainer_refuses (h : ¬ (ctr.id ∉ s.fifos ∧ g.fifoExists = false ∧ g.mkfifo = none)) :
    ∃ e, startContainer g ctr s = (.err e, s) := by
  rw [startContainer]
  rw [Act.bind_ok (Act.read_apply _)]
  split
  · exact ⟨_, rfl⟩
  · rename_i hf
    obtain ⟨hn, hf⟩ := not_or.1 hf
    cases hm : g.mkfifo with
    | some e => exact ⟨_, rfl⟩
    | none => exact absurd ⟨hn, by simpa using hf, hm⟩ h

theorem finishCreate_makes {m : List String} (hb : (buildContainer g cid s.sandbox oci).isOk)
    (hn : cid ∉ s.fifos) (hf : g.fifoExists = false) (hm : g.mkfifo = none) :
    (finishCreate g cid m oci s).1 = g.startRest ∧
      (finishCreate g cid m oci s).2.fifos = insert cid s.fifos := by
  obtain ⟨ctr, hb⟩ := Outcome.isOk_iff.1 hb
  have hid := buildContainer_id hb
  have hnew : ctr.id ∉ (s.onSandbox (.recordMounts cid m)).fifos := by
    rwa [hid]
  have hs := startContainer_makes hnew hf hm
  have hb' : buildContainer g cid (s.onSandbox (.recordMounts cid m)).sandbox oci = .ok ctr := hb
  rw [finishCreate]
  rw [Act.bind_ok (Act.modify_apply _), Act.bind_ok (Act.read_apply _), hb',
    Act.bind_ok (Act.lift_apply _), Act.bind_apply, hs, hid]
  cases g.startRest with
  | ok _ => exact ⟨rfl, rfl⟩
  | err e => exact ⟨rfl, rfl⟩
  | panic => exact ⟨rfl, rfl⟩

theorem finishCreate_refuses {m : List String} (h : ¬ ((buildContainer g cid s.sandbox oci).isOk ∧
      cid ∉ s.fifos ∧ g.fifoExists = false ∧ g.mkfifo = none)) :
    (finishCreate g cid m oci s).1 ≠ .ok () ∧ (finishCreate g cid m oci s).2.fifos = s.fifos := by
  unfold finishCreate
  rw [Act.bind_ok (Act.modify_apply _), Act.bind_ok (Act.read_apply _)]
  have hb : buildContainer g cid (s.onSandbox (.recordMounts cid m)).sandbox oci =
      buildContainer g cid s.sandbox oci := rfl
  rw [hb]
  cases ho : buildContainer g cid s.sandbox oci with
  | err e => exact ⟨nofun, rfl⟩
  | panic => exact ⟨nofun, rfl⟩
  | ok ctr =>
    have hold : ¬ (ctr.id ∉ (s.onSandbox (.recordMounts cid m)).fifos ∧ g.fifoExists = false ∧
        g.mkfifo = none) := by
      rw [buildContainer_id ho]
      exact fun hk => h ⟨by rw [ho]; rfl, hk⟩
    obtain ⟨e, hs⟩ := startContainer_refuses hold
    rw [Act.bind_ok (Act.lift_apply _), Act.bind_err hs]
    exact ⟨nofun, rfl⟩

theorem handledAll_of_ok {g : Nat → StorageGuest} {storages : List Storage}
    (hp : s.poisoned = false) (h : addStorages g storages s = (.ok m, t)) :
    handledAll g s.sandbox storages := by
  induction storages generalizing g s t m with
  | nil => trivial
  | cons storage storages ih =>
    have ha : addStorage (g 0) storage s = _ := addStorage_apply fun _ => hp
    cases ho : storage.handled (g 0) (s.sandbox.known storage.mountPoint) with
    | err e =>
      rw [ho] at ha
      rw [addStorages_cons_err ha] at h
      cases h
    | panic =>
      rw [ho] at ha
      rw [addStorages_cons_panic ha] at h
      cases h
    | ok p =>
      rw [ho] at ha
      obtain ⟨_, u, hu, h⟩ := Act.bind_eq_ok.1 h
      cases ha.symm.trans hu
      obtain ⟨m', v, hv, -⟩ := Act.bind_eq_ok.1 h
      exact ⟨by rw [ho]; rfl, ih (s := s.handle storage (.ok p)) hp hv⟩

theorem buildContainer_handle (storage : Storage) :
    buildContainer g cid (sb.handle storage) oci = buildContainer g cid sb oci := by
  unfold Sandbox.handle Sandbox.setSandboxStorage
  split
  · cases sb.storages.lookup storage.mountPoint with
    | none => rfl
    | some count => rfl
  · rfl

/-- What a create's storages leave alone of what the rest of it looks at. -/
structure Agent.SameChecks (s t : Agent) : Prop where
  poisoned : t.poisoned = s.poisoned
  fifos : t.fifos = s.fifos
  build : ∀ g cid oci, buildContainer g cid t.sandbox oci = buildContainer g cid s.sandbox oci

theorem addStorages_sameChecks (g : Nat → StorageGuest) (storages : List Storage) (s : Agent) :
    s.SameChecks (addStorages g storages s).2 := by
  apply addStorages_preserves (I := s.SameChecks) _ g storages s ⟨rfl, rfl, fun _ _ _ => rfl⟩
  intro t storage o h
  exact ⟨h.poisoned, h.fifos, fun g cid oci =>
    (buildContainer_handle storage).trans (h.build g cid oci)⟩

theorem doCreateContainer_makes (h : req.MakesFifo g s) :
    (doCreateContainer req g s).1 = g.startRest ∧
      (doCreateContainer req g s).2.fifos = insert req.containerId s.fifos := by
  obtain ⟨hp, hall, hb, hn, hf, hm⟩ := h
  obtain ⟨ctr, hb⟩ := Outcome.isOk_iff.1 hb
  obtain ⟨oci, ho, hb⟩ := Outcome.bind_eq_ok.1 hb
  obtain ⟨m, u, hu⟩ := addStorages_ok hp hall
  have hsame := addStorages_sameChecks g.storages req.storages s
  rw [hu] at hsame
  have hb' : (buildContainer g req.containerId u.sandbox oci).isOk := by
    rw [hsame.build, hb]
    rfl
  obtain ⟨h1, h2⟩ := finishCreate_makes (m := m) hb' (by rwa [hsame.fifos]) hf hm
  have hup := hsame.poisoned.trans hp
  rw [doCreateContainer_eq, ho, Act.bind_ok (Act.lift_apply _), Act.bind_ok hu,
    locked_fst _ hup, locked_snd (f := Agent.fifos) (fun _ _ => rfl) _ hup, h1, h2, hsame.fifos]
  exact ⟨rfl, rfl⟩

theorem doCreateContainer_refuses (h : ¬ req.MakesFifo g s) :
    (doCreateContainer req g s).1 ≠ .ok () ∧ (doCreateContainer req g s).2.fifos = s.fifos := by
  rw [doCreateContainer_eq]
  cases ho : req.adapted g with
  | err e => exact ⟨nofun, rfl⟩
  | panic => exact ⟨nofun, rfl⟩
  | ok oci =>
    rw [Act.bind_ok (Act.lift_apply _)]
    have hsame := addStorages_sameChecks g.storages req.storages s
    rcases hu : addStorages g.storages req.storages s with ⟨r, u⟩
    rw [hu] at hsame
    cases r with
    | err e =>
      rw [Act.bind_err hu]
      exact ⟨nofun, hsame.fifos⟩
    | panic =>
      rw [Act.bind_panic hu]
      exact ⟨nofun, hsame.fifos⟩
    | ok m =>
      rw [Act.bind_ok hu]
      cases hp : u.poisoned with
      | true =>
        rw [locked_poisoned _ hp]
        exact ⟨nofun, hsame.fifos⟩
      | false =>
        have hps := hsame.poisoned.symm.trans hp
        have hrefused : ¬ ((buildContainer g req.containerId u.sandbox oci).isOk ∧
            req.containerId ∉ u.fifos ∧ g.fifoExists = false ∧ g.mkfifo = none) := by
          rintro ⟨hb, hn, hrest⟩
          rw [hsame.build] at hb
          rw [hsame.fifos] at hn
          exact h ⟨hps, handledAll_of_ok hps hu, by rwa [ho], hn, hrest⟩
        obtain ⟨h1, h2⟩ : (finishCreate g req.containerId m oci u).1 ≠ .ok () ∧
            (finishCreate g req.containerId m oci u).2.fifos = u.fifos :=
          finishCreate_refuses hrefused
        rw [locked_fst _ hp, locked_snd (f := Agent.fifos) (fun _ _ => rfl) _ hp]
        exact ⟨h1, h2.trans hsame.fifos⟩

/-- A storage that is known already asks nothing of the guest. -/
theorem Storage.handled_known {storage : Storage} {g : StorageGuest} {known : Bool}
    (h : (storage.handled g false).isOk) : (storage.handled g known).isOk := by
  cases known with
  | false => exact h
  | true =>
    unfold Storage.handled at *
    split
    · rfl
    · rename_i he
      rw [if_neg he] at h
      split
      · rfl
      · rename_i hl
        rwa [if_neg hl] at h

theorem Sandbox.known_iff : sb.known p = true ↔ p ∈ sb.storages := by
  rw [Sandbox.known]
  rw [Option.isSome_iff_exists, Finmap.mem_iff]

theorem Sandbox.handle_known (storage : Storage) (h : ∀ p, sb.known p → sb'.known p) (p : String) :
    (sb.handle storage).known p → (sb'.handle storage).known p := by
  unfold Sandbox.handle
  split
  · unfold Sandbox.known at *
    rw [Sandbox.lookup_setSandboxStorage, Sandbox.lookup_setSandboxStorage]
    split
    · exact fun _ => rfl
    · exact h p
  · exact h p

theorem handledAll_mono {g : Nat → StorageGuest} {storages : List Storage}
    (hk : ∀ p, sb.known p → sb'.known p) (h : handledAll g sb storages) :
    handledAll g sb' storages := by
  induction storages generalizing g sb sb' with
  | nil => trivial
  | cons storage storages ih =>
    refine ⟨?_, ih (Sandbox.handle_known storage hk) h.2⟩
    cases hs : sb.known storage.mountPoint with
    | false =>
      have hf := h.1
      rw [hs] at hf
      exact Storage.handled_known hf
    | true =>
      have ht := h.1
      rw [hs] at ht
      rwa [hk _ hs]

theorem buildContainer_createRoot (h : (buildContainer g cid sb oci).isOk) :
    g.createRoot = none := by
  obtain ⟨ctr, h⟩ := Outcome.isOk_iff.1 h
  obtain ⟨oci', -, h⟩ := Outcome.bind_eq_ok.1 h
  obtain ⟨_, -, h⟩ := Outcome.bind_eq_ok.1 h
  obtain ⟨ctr', hn, -⟩ := Outcome.bind_eq_ok.1 h
  obtain ⟨_, -, hn⟩ := Outcome.bind_eq_ok.1 hn
  split at hn
  · cases hn
  · cases hn
  · assumption

theorem CreateGuest.finds_of_none (h : g.createRoot = none) (root : Bool) : g.finds root = g := by
  rw [CreateGuest.finds]
  rw [← h, ite_self]

theorem CreateContainerRequest.MakesFifo.createRoot (h : req.MakesFifo g s) :
    g.createRoot = none := by
  obtain ⟨-, -, hb, -⟩ := h
  obtain ⟨ctr, hb⟩ := Outcome.isOk_iff.1 hb
  obtain ⟨oci, -, hb⟩ := Outcome.bind_eq_ok.1 hb
  exact buildContainer_createRoot (Outcome.isOk_iff.2 ⟨ctr, hb⟩)

theorem doCreateContainer_fst : (doCreateContainer req g s).1 = .ok () ↔
    req.MakesFifo g s ∧ g.startRest = .ok () := by
  by_cases h : req.MakesFifo g s
  · rw [(doCreateContainer_makes h).1]
    exact ⟨fun ho => ⟨h, ho⟩, And.right⟩
  · exact ⟨fun ho => absurd ho (doCreateContainer_refuses h).1, fun hk => absurd hk.1 h⟩

theorem releaseContainer_fifos (g : RemoveGuest) (cid : String) (s : Agent) :
    (releaseContainer g cid s).2.fifos = s.fifos :=
  releaseContainer_preserves (I := fun a => a.fifos = s.fifos) (fun _ _ _ h => h) (fun _ _ h => h)
    g cid s rfl

/-- No removal touches a fifo. -/
theorem doRemoveContainer_fifos (req : RemoveContainerRequest) (g : RemoveGuest) (s : Agent) :
    (doRemoveContainer req g s).2.fifos = s.fifos := by
  by_cases hr : req.Ready g s
  · rw [hr.eq, locked_snd (f := Agent.fifos) (fun _ _ => rfl) _ hr.free_stop]
    exact releaseContainer_fifos g _ _
  · exact (doRemoveContainer_not_ready (f := Agent.fifos) (fun _ _ => rfl) (fun _ _ => rfl) hr).2

section
variable {s t : BaseRun} {storages : Table String UInt32}

theorem BaseRun.guest_without (s : BaseRun) (h : req.containerId = cid) (g : CreateGuest) :
    (s.without cid storages).guest req g = g := by
  have hroot : req.containerId ∉ (s.without cid storages).roots := by
    rw [h]
    exact Finset.notMem_erase _ _
  rw [BaseRun.guest]
  rw [decide_eq_false hroot]
  rfl

theorem BaseRun.attempt_without (hid : req.containerId = cid) (hn : cid ∉ s.agent.fifos)
    (hk : ∀ p ∈ storages, p ∈ s.agent.sandbox.storages)
    (h : ((s.without cid storages).attempt req g).1 = .ok ()) : (s.attempt req g).1 = .ok () := by
  unfold BaseRun.attempt at *
  rw [BaseRun.guest_without s hid, doCreateContainer_fst] at h
  obtain ⟨hmakes, hrest⟩ := h
  have hg : s.guest req g = g := CreateGuest.finds_of_none hmakes.createRoot _
  rw [hg, doCreateContainer_fst]
  obtain ⟨hp, hall, hb, -, hf, hm⟩ := hmakes
  refine ⟨⟨hp, ?_, hb, by rwa [hid], hf, hm⟩, hrest⟩
  exact handledAll_mono (fun p hp => Sandbox.known_iff.2 (hk p (Sandbox.known_iff.1 hp))) hall

theorem bounded_nil : ([] : List Storage).length < 2 ^ 32 := by
  simp

/-- A create without storages. -/
def createBare (cid : String) : CreateContainerRequest :=
  ⟨cid, cid, [], [], some shellSpec, bounded_nil⟩

theorem createBare_makes {a : Agent} (hp : a.poisoned = false) (hn : cid ∉ a.fifos) :
    (createBare cid).MakesFifo obligingCreate a :=
  ⟨hp, trivial, rfl, hn, rfl, rfl⟩

theorem BaseRun.readmits_iff (hp : s.agent.poisoned = false) :
    s.Readmits cid ↔ cid ∉ s.agent.fifos := by
  constructor
  · intro h hm
    have hok : ((s.without cid s.agent.sandbox.storages).attempt (createBare cid)
        obligingCreate).1 = .ok () := by
      have hid : (createBare cid).containerId = cid := rfl
      rw [BaseRun.attempt]
      rw [BaseRun.guest_without s hid, doCreateContainer_fst]
      exact ⟨createBare_makes hp (Finset.notMem_erase _ _), rfl⟩
    have hs := h _ _ _ rfl (fun _ hm => hm) hok
    exact (doCreateContainer_fst.1 hs).1.2.2.2.1 hm
  · exact fun hn req g storages hid hk => BaseRun.attempt_without hid hn hk

/-- A step makes the fifo of this id or leaves it alone. -/
theorem baseRequests_fifo (h : baseRequests.step s a = some t) :
    cid ∉ t.agent.fifos ↔ cid ∉ s.agent.fifos ∧ FailsEarly cid s a := by
  cases a with
  | remove req g =>
    cases h
    rw [doRemoveContainer_fifos]
    exact (and_iff_left trivial).symm
  | create req g =>
    cases h
    unfold FailsEarly BaseRun.attempt
    by_cases hm : req.MakesFifo (s.guest req g) s.agent
    · rw [(doCreateContainer_makes hm).2, Finset.mem_insert, not_or]
      exact ⟨fun h => ⟨h.2, fun hid => absurd hid.symm h.1⟩,
        fun h => ⟨fun hid => h.2 hid.symm hm, h.1⟩⟩
    · rw [(doCreateContainer_refuses hm).2]
      exact (and_iff_left fun _ => hm).symm

/-- After any creates and removals, an id is as good as new if and only if every create for it has
failed before it made the exec fifo. -/
theorem BaseRun.readmits_iff_failsEarly (hs : cid ∉ s.agent.fifos)
    (hr : baseRequests.run s l = some t) (ht : t.agent.poisoned = false) :
    t.Readmits cid ↔ baseRequests.Admits (FailsEarly cid) s l := by
  have hkept := System.kept_iff (P := fun s => cid ∉ s.agent.fifos)
    (fun _ _ _ => baseRequests_fifo) hr
  rw [BaseRun.readmits_iff ht, hkept, and_iff_right hs]

def emptyBase : BaseRun := ⟨emptySandbox.agent, ∅⟩

/-- The process of the container cannot be set up. -/
def failedCreate : SandboxRequest :=
  .create (createBare "c1") { obligingCreate with newProcess := .err (.errorCode "no pipe") }

theorem BaseRun.readmits_iff_failedCreate : ∃ t,
    baseRequests.run emptyBase [failedCreate] = some t ∧ t.roots = {"c1"} ∧ t.Readmits "c1" := by
  refine ⟨_, rfl, by decide, ?_⟩
  refine (BaseRun.readmits_iff_failsEarly (s := emptyBase) (l := [failedCreate]) (by decide) rfl
    (by decide)).2 ⟨fun _ => by decide, ?_⟩
  exact fun _ _ => trivial

/-- A container is created and removed, and both requests succeed. -/
theorem BaseRun.create_remove_rejects : ¬ ∀ cid s t req g rem h,
    cid ∉ s.agent.fifos → req.containerId = cid → rem.containerId = cid →
    (s.attempt req g).1 = .ok () → (doRemoveContainer rem h (s.attempt req g).2).1 = .ok () →
    baseRequests.run s [.create req g, .remove rem h] = some t → t.Readmits cid := by
  intro h
  have hc := h "c1" emptyBase _ (createBare "c1") obligingCreate ⟨"c1", 0⟩ obligingRemove
    (by decide) rfl rfl (by decide) (by decide) rfl
  exact (BaseRun.readmits_iff (by decide)).1 hc (by decide)

end

end KataAgent
