import Mathlib.Data.UInt
import KataAgent.ContainerRemoval
import KataAgent.Transition

namespace KataAgent
open Fallible Transition
set_option autoImplicit true

/-- A request together with what the guest answers to it. -/
inductive SandboxRequest where
  | create (req : CreateContainerRequest) (g : CreateGuest)
  | remove (req : RemoveContainerRequest) (g : RemoveGuest)

/-- The ephemeral storages of a request, by their points. -/
def ephemeralPoints (storages : List Storage) : List String :=
  (storages.filter fun storage => storage.driver = "ephemeral").map Storage.mountPoint

/-- The directories of these points. -/
def Agent.ephemeralPlaces (a : Agent) (storages : List Storage) : List String :=
  (ephemeralPoints storages).map a.place

/-- The agent, with the history that its clients have of it. -/
structure SandboxRun where
  agent : Agent
  /-- The containers that were created and not yet removed, with their requested storages. -/
  created : Table String (List Storage)
  /-- The directories that lost their mount, or were deleted, under such a container. -/
  lost : List String

def SandboxRun.create (s : SandboxRun) (req : CreateContainerRequest) (g : CreateGuest) :
    SandboxRun :=
  let r := doCreateContainer req g s.agent
  { s with
    agent := r.2
    created := if r.1 = .ok () then s.created.insert req.containerId req.storages else s.created }

def SandboxRun.remove (s : SandboxRun) (req : RemoveContainerRequest) (g : RemoveGuest) :
    SandboxRun :=
  let r := doRemoveContainer req g s.agent
  let created : Table String (List Storage) :=
    if r.1 = .ok () then s.created.erase req.containerId else s.created
  { agent := r.2
    created := created
    lost := s.lost ++ (r.2.detached.drop s.agent.detached.length).filter fun p =>
      0 < created.count fun storages => p ∈ s.agent.ephemeralPlaces storages }

theorem SandboxRun.create_ok {s : SandboxRun} (h : doCreateContainer req g s.agent = (.ok (), a)) :
    s.create req g =
      { s with agent := a, created := s.created.insert req.containerId req.storages } := by
  simp only [SandboxRun.create, h, if_true]

theorem SandboxRun.create_fails {s : SandboxRun}
    (h : (doCreateContainer req g s.agent).1 ≠ .ok ()) :
    s.create req g = { s with agent := (doCreateContainer req g s.agent).2 } := by
  simp only [SandboxRun.create, if_neg h]

theorem SandboxRun.remove_ok {s : SandboxRun} (h : doRemoveContainer req g s.agent = (.ok (), a)) :
    (s.remove req g).agent = a ∧
      (s.remove req g).created = s.created.erase req.containerId := by
  simp only [SandboxRun.remove, h, if_true, and_self]

theorem SandboxRun.remove_fails {s : SandboxRun}
    (h : (doRemoveContainer req g s.agent).1 ≠ .ok ()) :
    (s.remove req g).agent = (doRemoveContainer req g s.agent).2 ∧
      (s.remove req g).created = s.created := by
  simp only [SandboxRun.remove, if_neg h, and_self]

/-- The requests one after the other, from a sandbox without containers. -/
def sandboxRequests : System SandboxRun SandboxRequest where
  init s := s.agent.sandbox.containers = ∅ ∧ s.agent.sandbox.containerMounts = ∅ ∧
    s.agent.sandbox.storages = ∅ ∧ s.created = ∅ ∧ s.lost = []
  step s
    | .create req g => some (s.create req g)
    | .remove req g => some (s.remove req g)

/-- The reference counter of a path, where no entry counts nothing. -/
def Sandbox.refs (sb : Sandbox) (p : String) : Nat :=
  (sb.storages.lookup p).elim 0 UInt32.toNat

variable {s t : SandboxRun} {sb : Sandbox} {p q : String} {points : List String}

theorem Sandbox.refs_setSandboxStorage (h : sb.storages.lookup q ≠ some (2 ^ 32 - 1)) (p : String) :
    (sb.setSandboxStorage q).2.refs p = sb.refs p + if p = q then 1 else 0 := by
  unfold Sandbox.refs
  rw [Sandbox.lookup_setSandboxStorage]
  by_cases hp : p = q
  · subst hp
    rw [if_pos rfl, if_pos rfl]
    cases hl : sb.storages.lookup p with
    | none => rfl
    | some count =>
      have hc : count.toNat ≠ (2 ^ 32 - 1 : UInt32).toNat := fun hc => h (by
        rw [hl, UInt32.toNat_inj.1 hc])
      have hmax : (2 ^ 32 - 1 : UInt32).toNat = 2 ^ 32 - 1 := by decide
      have := count.toNat_lt
      rw [hmax] at hc
      simp only [Option.elim_some, UInt32.toNat_add]
      have h1 : (1 : UInt32).toNat = 1 := rfl
      omega
  · rw [if_neg hp, if_neg hp]
    rfl

theorem Sandbox.refs_unsetSandboxStorage (h : 0 < sb.refs q) (p : String) :
    (sb.unsetSandboxStorage q).2.refs p + (if p = q then 1 else 0) = sb.refs p := by
  unfold Sandbox.refs at *
  rw [Sandbox.unsetSandboxStorage]
  cases hl : sb.storages.lookup q with
  | none =>
    rw [hl] at h
    cases h
  | some count =>
    rw [hl] at h
    have hpos : 0 < count.toNat := h
    have h1 : (1 : UInt32).toNat = 1 := rfl
    have hsub : (count - 1).toNat = count.toNat - 1 :=
      UInt32.toNat_sub_of_le _ _ (UInt32.le_iff_toNat_le.2 hpos)
    dsimp only
    split
    · rename_i hlt
      rw [UInt32.lt_iff_toNat_lt, hsub] at hlt
      rw [Table.lookup_erase]
      by_cases hp : p = q
      · rw [if_pos hp, if_pos hp, hp, hl, Option.elim_some, Option.elim_none]
        omega
      · rw [if_neg hp, if_neg hp]
        rfl
    · rw [Table.lookup_insert]
      by_cases hp : p = q
      · rw [if_pos hp, if_pos hp, hp, hl, Option.elim_some, Option.elim_some, hsub]
        omega
      · rw [if_neg hp, if_neg hp]
        rfl

/-- Distinct points that are not at the counter's limit each gain one reference. -/
theorem Sandbox.refs_countAll (hn : points.Nodup)
    (h : ∀ q ∈ points, sb.storages.lookup q ≠ some (2 ^ 32 - 1)) (p : String) :
    (sb.countAll points).refs p = sb.refs p + if p ∈ points then 1 else 0 := by
  induction points generalizing sb with
  | nil => simp [Sandbox.countAll]
  | cons q points ih =>
    obtain ⟨hq, hn⟩ := List.nodup_cons.1 hn
    have hstep := Sandbox.refs_setSandboxStorage (h q List.mem_cons_self) p
    have hrest : ∀ r ∈ points,
        (sb.setSandboxStorage q).2.storages.lookup r ≠ some (2 ^ 32 - 1) := by
      intro r hr
      have hne : r ≠ q := fun he => hq (he ▸ hr)
      rw [Sandbox.lookup_setSandboxStorage, if_neg hne]
      exact h r (List.mem_cons_of_mem _ hr)
    have hall := ih hn hrest
    unfold Sandbox.countAll at *
    rw [List.foldl_cons, hall, hstep]
    by_cases hp : p = q
    · subst hp
      simp [hq]
    · simp [hp]

/-- Distinct points that have references each lose one. -/
theorem Sandbox.refs_uncountAll (hn : points.Nodup) (h : ∀ q ∈ points, 0 < sb.refs q) (p : String) :
    (sb.uncountAll points).refs p + (if p ∈ points then 1 else 0) = sb.refs p := by
  induction points generalizing sb with
  | nil => simp [Sandbox.uncountAll]
  | cons q points ih =>
    obtain ⟨hq, hn⟩ := List.nodup_cons.1 hn
    have hstep := Sandbox.refs_unsetSandboxStorage (h q List.mem_cons_self)
    have hrest : ∀ r ∈ points, 0 < (sb.unsetSandboxStorage q).2.refs r := by
      intro r hr
      have hne : r ≠ q := fun he => hq (he ▸ hr)
      have hr' := hstep r
      rw [if_neg hne, Nat.add_zero] at hr'
      rw [hr']
      exact h r (List.mem_cons_of_mem _ hr)
    have hall := ih hn hrest
    unfold Sandbox.uncountAll at *
    rw [List.foldl_cons, ← hstep p, ← hall]
    by_cases hp : p = q
    · subst hp
      simp [hq]
    · simp [hp]

/-- The counters are those of the containers that hold them. -/
structure SandboxRun.Counted (s : SandboxRun) : Prop where
  exact : ∀ p, s.agent.sandbox.refs p = s.created.count fun storages => p ∈ countedPoints storages
  distinct : ∀ cid storages, s.created.lookup cid = some storages → (countedPoints storages).Nodup
  started : ∀ cid, cid ∈ s.created → cid ∈ s.agent.fifos

/-- A create that reaches a counted storage succeeds and counts distinct points below the
counter's limit. A removal whose pass over the recorded mounts succeeds finds there exactly the
counted points that the container's create listed, and releases them without a failure. -/
def CountsOnce (s : SandboxRun) : SandboxRequest → Prop
  | .create req g => req.reachesStorages g → reachesCounted g.storages req.storages →
    req.Completes g s.agent ∧ (countedPoints req.storages).Nodup ∧
      ∀ p ∈ countedPoints req.storages, s.agent.sandbox.storages.lookup p ≠ some (2 ^ 32 - 1)
  | .remove req g => req.Ready g s.agent →
    unmounted g.refused s.agent.mounts (s.agent.recordedPlaces req.containerId) =
      s.agent.recordedPlaces req.containerId →
    (s.agent.released req.containerId).Perm
      (countedPoints ((s.created.lookup req.containerId).getD [])) ∧
    g.releases s.agent.place 0 s.agent.sandbox
      (s.agent.mounts.diff (s.agent.recordedPlaces req.containerId))
      (s.agent.released req.containerId)

theorem countedPoints_of_plain {g : Nat → StorageGuest} {storages : List Storage}
    (h : ¬ reachesCounted g storages) (ha : handledAll g sb storages) :
    countedPoints storages = [] := by
  induction storages generalizing g sb with
  | nil => rfl
  | cons storage storages ih =>
    obtain ⟨hc, h⟩ := not_or.1 h
    obtain ⟨ho, ha⟩ := ha
    rw [Storage.handled_of_plain hc] at ho
    have hr := ih (fun hr => h ⟨ho, hr⟩) ha
    unfold countedPoints at *
    rwa [List.filter_cons_of_neg (by simpa using hc)]

/-- A successful create leaves one more reference to each of its counted points. -/
theorem doCreateContainer_refs {req : CreateContainerRequest} {g : CreateGuest}
    (hc : CountsOnce s (.create req g))
    (h : doCreateContainer req g s.agent = (.ok (), a)) :
    req.containerId ∉ s.agent.fifos ∧ a.fifos = insert req.containerId s.agent.fifos ∧
      (countedPoints req.storages).Nodup ∧ ∀ p, a.sandbox.refs p =
        s.agent.sandbox.refs p + if p ∈ countedPoints req.storages then 1 else 0 := by
  obtain ⟨hr, m, u, ctr, hu, -, -, hn, ht⟩ := doCreateContainer_ok h
  have hf := addStorages_preserves (I := fun u => u.fifos = s.agent.fifos) (fun _ _ _ h => h)
    g.storages req.storages s.agent rfl
  rw [hu] at hf
  obtain ⟨points, -, hs, -, hp⟩ := addStorages_counts hu nofun
  rw [hp m rfl] at hs
  have hok : (countedPoints req.storages).Nodup ∧ ∀ p ∈ countedPoints req.storages,
      s.agent.sandbox.storages.lookup p ≠ some (2 ^ 32 - 1) := by
    by_cases hk : reachesCounted g.storages req.storages
    · exact (hc hr hk).2
    · have hm := (addStorages_plain_ok (m := m) hk s.agent).1 (by rw [hu])
      rw [countedPoints_of_plain hk hm.1]
      exact ⟨List.nodup_nil, nofun⟩
  subst ht
  refine ⟨hf ▸ hn, by rw [← hf], hok.1, fun p => ?_⟩
  rw [← Sandbox.refs_countAll hok.1 hok.2, ← hs]
  rfl

/-- A create that fails leaves the counters alone. -/
theorem doCreateContainer_storages {req : CreateContainerRequest} {g : CreateGuest}
    (hc : CountsOnce s (.create req g)) (h : (doCreateContainer req g s.agent).1 ≠ .ok ()) :
    (doCreateContainer req g s.agent).2.sandbox.storages = s.agent.sandbox.storages := by
  apply doCreateContainer_preserves (I := fun a => a.sandbox.storages = s.agent.sandbox.storages)
    ⟨fun _ _ h => h, fun _ _ _ h => h, fun _ _ h => h, fun _ _ h => h⟩ rfl
  intro hr
  have hk : ¬ reachesCounted g.storages req.storages := fun hk => by
    obtain ⟨t, ht⟩ := (hc hr hk).1.ok
    rw [ht] at h
    exact h rfl
  rw [addStorages_mounts hk]

theorem doCreateContainer_fifos (req : CreateContainerRequest) (g : CreateGuest) (a : Agent)
    (h : c ∈ a.fifos) : c ∈ (doCreateContainer req g a).2.fifos := by
  apply doCreateContainer_preserves (I := fun a => c ∈ a.fifos)
    ⟨fun _ _ h => h, fun _ _ _ h => h, fun _ _ h => h, fun _ _ h => Finset.mem_insert_of_mem h⟩ h
  intro _
  exact addStorages_preserves (I := fun a => c ∈ a.fifos) (fun _ _ _ h => h) _ _ _ h

theorem SandboxRun.Counted.create (h : s.Counted) {req : CreateContainerRequest} {g : CreateGuest}
    (hc : CountsOnce s (.create req g)) : (s.create req g).Counted := by
  by_cases ho : (doCreateContainer req g s.agent).1 = .ok ()
  · obtain ⟨hn, hf, hd, hp⟩ := doCreateContainer_refs hc (Prod.ext ho rfl)
    have hnew : s.created.lookup req.containerId = none := by
      rw [← Table.notMem_iff]
      exact fun hm => hn (h.started _ hm)
    rw [SandboxRun.create_ok (Prod.ext ho rfl)]
    exact {
      exact := fun p => by
        rw [hp, h.exact p]
        exact (Table.count_insert hnew).symm
      distinct := fun cid storages hl => by
        rcases Table.of_lookup_insert hl with ⟨-, rfl⟩ | ⟨-, hl⟩
        · exact hd
        · exact h.distinct cid storages hl
      started := fun cid hm => by
        rw [hf, Finset.mem_insert]
        exact (Finmap.mem_insert.1 hm).imp_right (h.started cid) }
  · have hs := doCreateContainer_storages hc ho
    rw [SandboxRun.create_fails ho]
    exact {
      exact := fun p => by
        rw [← h.exact p]
        unfold Sandbox.refs
        rw [hs]
      distinct := h.distinct
      started := fun cid hm => doCreateContainer_fifos req g s.agent (h.started cid hm) }

theorem SandboxRun.Counted.of_storages (h : s.Counted)
    (hs : t.agent.sandbox.storages = s.agent.sandbox.storages) (hf : t.agent.fifos = s.agent.fifos)
    (hc : t.created = s.created) : t.Counted where
  exact p := by
    rw [hc, ← h.exact p]
    unfold Sandbox.refs
    rw [hs]
  distinct := by
    rw [hc]
    exact h.distinct
  started := by
    rw [hc, hf]
    exact h.started

/-- The removal of a container takes its references away. -/
theorem SandboxRun.Counted.release (h : s.Counted) {cid : String}
    (hsb : sb.storages = s.agent.sandbox.storages)
    (hperm : (s.agent.released cid).Perm (countedPoints ((s.created.lookup cid).getD [])))
    (p : String) : (sb.uncountAll (s.agent.released cid)).refs p =
      Table.count (s.created.erase cid) fun storages => p ∈ countedPoints storages := by
  have href (q : String) : sb.refs q = s.agent.sandbox.refs q := by
    unfold Sandbox.refs
    rw [hsb]
  cases hl : s.created.lookup cid with
  | none =>
    rw [hl] at hperm
    rw [List.perm_nil.1 hperm, Table.erase_of_lookup_none hl]
    exact (href p).trans (h.exact p)
  | some storages =>
    rw [hl] at hperm
    have hn := (hperm.nodup_iff).2 (h.distinct cid storages hl)
    have hpos : ∀ q ∈ s.agent.released cid, 0 < sb.refs q := fun q hq => by
      rw [href q, h.exact q, Table.count_pos_iff]
      exact ⟨cid, storages, hl, hperm.mem_iff.1 hq⟩
    have hp := Sandbox.refs_uncountAll hn hpos p
    have hcount := Table.count_erase (P := fun storages => p ∈ countedPoints storages) hl
    have hmem : p ∈ s.agent.released cid ↔ p ∈ countedPoints storages := hperm.mem_iff
    rw [href p, h.exact p, ← hcount] at hp
    by_cases hm : p ∈ countedPoints storages
    · rw [if_pos hm, if_pos (hmem.2 hm)] at hp
      exact Nat.add_right_cancel hp
    · rwa [if_neg hm, if_neg fun h => hm (hmem.1 h)] at hp

theorem SandboxRun.Counted.remove (h : s.Counted) {req : RemoveContainerRequest} {g : RemoveGuest}
    (hc : CountsOnce s (.remove req g)) : (s.remove req g).Counted := by
  by_cases hready : req.Ready g s.agent
  · by_cases hu : unmounted g.refused s.agent.mounts (s.agent.recordedPlaces req.containerId) =
        s.agent.recordedPlaces req.containerId
    · obtain ⟨hperm, hr⟩ := hc hready hu
      have hstop : (s.agent.stop req.containerId).sandbox.storages =
          s.agent.sandbox.storages := rfl
      obtain ⟨a, ha, hs, hf⟩ := releaseContainer_ok (s := s.agent.stop req.containerId) hu
        ((RemoveGuest.releases_congr hstop).2 hr)
      have hok := hready.eq.trans (locked_apply hready.free_stop ha nofun)
      obtain ⟨hagent, hcreated⟩ := SandboxRun.remove_ok hok
      exact {
        exact := fun p => by
          rw [hagent, hcreated, hs]
          exact h.release hstop hperm p
        distinct := fun cid storages hl => by
          rw [hcreated] at hl
          exact h.distinct cid storages (Table.of_lookup_erase hl).2
        started := fun cid hm => by
          rw [hcreated] at hm
          rw [hagent, hf]
          exact h.started cid (Finmap.mem_erase.1 hm).2 }
    · obtain ⟨e, he⟩ := releaseContainer_err (s := s.agent.stop req.containerId) hu
      have herr := hready.eq.trans (locked_apply hready.free_stop he nofun)
      have hne : (doRemoveContainer req g s.agent).1 ≠ .ok () := by
        rw [herr]
        nofun
      obtain ⟨hagent, hcreated⟩ := SandboxRun.remove_fails hne
      rw [herr] at hagent
      exact h.of_storages (by rw [hagent]; rfl) (by rw [hagent]; rfl) hcreated
  · obtain ⟨hne, hs⟩ := doRemoveContainer_not_ready
      (f := fun a : Agent => (a.sandbox.storages, a.fifos)) (fun _ _ => rfl) (fun _ _ => rfl) hready
    obtain ⟨hagent, hcreated⟩ := SandboxRun.remove_fails hne
    obtain ⟨hs, hf⟩ := Prod.mk.inj hs
    exact h.of_storages (by rw [hagent, hs]) (by rw [hagent, hf]) hcreated

theorem SandboxRun.counted_init (h : sandboxRequests.init s) : s.Counted := by
  obtain ⟨-, -, hs, hc, -⟩ := h
  exact {
    exact := fun p => by
      rw [Sandbox.refs]
      rw [hs, hc, Finmap.lookup_empty, Table.count_empty]
      rfl
    distinct := fun cid storages hl => by
      rw [hc, Finmap.lookup_empty] at hl
      cases hl
    started := fun cid hm => by
      rw [hc] at hm
      exact absurd hm Finmap.notMem_empty }

theorem storages_count_references (h : sandboxRequests.Reach CountsOnce s) (p : String) :
    s.agent.sandbox.refs p = s.created.count fun storages => p ∈ countedPoints storages := by
  have hinv : s.Counted := by
    apply h.invariant fun _ => SandboxRun.counted_init
    intro s a t hs ha ht
    cases a with
    | create req g =>
      cases ht
      exact hs.create ha
    | remove req g =>
      cases ht
      exact hs.remove ha
  exact hinv.exact p

/-- A guest that lets every call succeed. -/
def obligingStorage : StorageGuest where
  pciDeviceName := .ok
  scsiDeviceName := .ok
  sourceMode := .ok sIfblk
  createPoint := none
  pointMetadata := none
  setPermissions := none
  destinationExists := true
  destinationIsDir := true
  parentExists := true
  createParent := none
  createDestination := none
  openDestination := none
  mount := none

def obligingCreate : CreateGuest where
  rescan := none
  devices := ⟨fun _ => true, fun _ => .ok 0, .ok, .ok⟩
  storages _ := obligingStorage
  bundlePath _ := .ok (some "/run/bundle")
  chdir := none
  validate := .ok ()
  createRoot := none
  chown := none
  cgroupManager := .ok ()
  newProcess := .ok ()
  fifoExists := false
  mkfifo := none
  startRest := .ok ()

def obligingRemove : RemoveGuest where
  destroy := .ok ()
  inTime := true
  refused _ := none
  releaseRefused _ := none
  removeDir _ := none

def shellSpec : Spec where
  process := some ⟨false, none, ["sh"], [], "/", none, [], false, 0⟩
  root := some ⟨"/run/bundle/rootfs", false⟩
  hostname := ""
  hooks := none
  linux := some ⟨[], [], [], none, [], []⟩

/-- A container with one storage at `/p`. -/
def createShell (cid driver source : String) : CreateContainerRequest :=
  ⟨cid, cid, [], [⟨driver, source, "tmpfs", [], "/p"⟩], some shellSpec, by simp⟩

def emptySandbox : SandboxRun :=
  ⟨⟨⟨∅, ∅, ∅, "", "", false, false⟩, false, id, [], ∅, []⟩, ∅, []⟩

theorem createShell_completes (hp : a.poisoned = false) (hf : cid ∉ a.fifos)
    (hs : handledAll obligingCreate.storages a.sandbox (createShell cid driver source).storages) :
    (createShell cid driver source).Completes obligingCreate a where
  free := hp
  rescan := rfl
  storages := hs
  rest := ⟨shellSpec, shellSpec, rfl, rfl, {
    linux := rfl
    bundle := ⟨_, _, rfl, rfl⟩
    process := rfl
    chdir := rfl
    validate := rfl
    createRoot := rfl
    chown := rfl
    cgroupManager := rfl
    newProcess := rfl
    noFifo := ⟨hf, rfl⟩
    mkfifo := rfl
    startRest := rfl }⟩

/-- An ephemeral storage over a mounted disk, removed and asked for again. -/
def podOverDisk : List SandboxRequest :=
  [.create (createShell "disk" "blk" "/dev/vda") obligingCreate,
    .create (createShell "pod" "ephemeral" "tmpfs") obligingCreate,
    .remove ⟨"pod", 0⟩ obligingRemove,
    .create (createShell "next" "ephemeral" "tmpfs") obligingCreate]

theorem podOverDisk_countsOnce : sandboxRequests.Admits CountsOnce emptySandbox podOverDisk := by
  have hpod {a : Agent} {cid : String} (hp : a.poisoned = false) (hf : cid ∉ a.fifos)
      (hs : handledAll obligingCreate.storages a.sandbox
        (createShell cid "ephemeral" "tmpfs").storages)
      (hl : a.sandbox.storages.lookup "/p" ≠ some (2 ^ 32 - 1)) {created : Table String _} :
      CountsOnce ⟨a, created, []⟩ (.create (createShell cid "ephemeral" "tmpfs") obligingCreate) :=
    fun _ _ => ⟨createShell_completes hp hf hs, List.nodup_singleton _, fun p hm => by
      cases List.mem_singleton.1 hm
      exact hl⟩
  refine ⟨fun _ hr => absurd hr (by decide), ?_⟩
  rintro t ⟨⟩
  refine ⟨hpod (by decide) (by decide) (by decide) (by decide), ?_⟩
  rintro t ⟨⟩
  refine ⟨fun _ _ => ⟨by decide, by decide⟩, ?_⟩
  rintro t ⟨⟩
  refine ⟨hpod (by decide) (by decide) (by decide) (by decide), ?_⟩
  rintro t ⟨⟩
  trivial

theorem storages_count_references_overDisk : ∃ s,
    sandboxRequests.run emptySandbox podOverDisk = some s ∧ ∀ p, s.agent.sandbox.refs p =
      s.created.count fun storages => p ∈ countedPoints storages :=
  ⟨_, rfl, storages_count_references (System.Reach.extend (.init ⟨rfl, rfl, rfl, rfl, rfl⟩)
    podOverDisk_countsOnce rfl)⟩

/-- A local storage is counted but never recorded as a mount, so its removal releases nothing. -/
theorem storages_outlive_containers : ¬ ∀ s, sandboxRequests.Reachable s →
    ∀ p, s.agent.sandbox.refs p =
      s.created.count fun storages => p ∈ countedPoints storages := by
  intro h
  have hr := System.reachable_of_run (M := sandboxRequests) (s := emptySandbox)
    (l := [.create (createShell "pod" "local" "") obligingCreate,
      .remove ⟨"pod", 0⟩ obligingRemove]) ⟨rfl, rfl, rfl, rfl, rfl⟩ rfl
  have hp := h _ hr "/p"
  revert hp
  decide

end KataAgent
