import KataAgent.CreateFailure

namespace KataAgent
open Fallible
set_option autoImplicit true

variable {g : RemoveGuest} {req : RemoveContainerRequest} {cid p : String} {s t : Agent}
  {refused : Nat → Option Errno} {mounts cmounts layers : List String}

/-- The guest refuses nothing but to unmount where nothing is mounted. -/
structure RemoveGuest.Obliges (g : RemoveGuest) : Prop where
  refused : ∀ n, g.refused n = none
  releaseRefused : ∀ n, g.releaseRefused n = none
  removeDir : ∀ n, g.removeDir n = none

/-- The removal succeeds, the directory of every recorded mount is unmounted once, the container is
forgotten, and nothing changes for the others. -/
structure RemovesOnce (req : RemoveContainerRequest) (g : RemoveGuest) (s : Agent) : Prop where
  ok : (doRemoveContainer req g s).1 = .ok ()
  unmounted : ∀ p ∈ s.recordedPlaces req.containerId,
    (doRemoveContainer req g s).2.mounts.count p + 1 = s.mounts.count p
  mounted : ∀ p ∉ s.recordedPlaces req.containerId,
    (doRemoveContainer req g s).2.mounts.count p = s.mounts.count p
  containers : ∀ cid, (doRemoveContainer req g s).2.sandbox.containers.lookup cid =
    if cid = req.containerId then none else s.sandbox.containers.lookup cid
  containerMounts : ∀ cid, (doRemoveContainer req g s).2.sandbox.containerMounts.lookup cid =
    if cid = req.containerId then none else s.sandbox.containerMounts.lookup cid

/-- A pass that is not refused takes off everything where it is mounted often enough. -/
theorem unmounted_eq_iff (h : ∀ n, refused n = none) :
    unmounted refused layers mounts = mounts ↔ ∀ p, mounts.count p ≤ layers.count p := by
  induction mounts generalizing refused layers with
  | nil => exact iff_of_true rfl fun p => Nat.zero_le _
  | cons m mounts ih =>
    rw [unmounted]
    by_cases hm : m ∈ layers
    · rw [if_pos ⟨h 0, hm⟩, List.cons.injEq, and_iff_right rfl, ih fun n => h (n + 1)]
      have hpos := List.count_pos_iff.2 hm
      refine forall_congr' fun p => ?_
      rw [List.count_cons, List.count_erase]
      by_cases hp : m = p
      · subst hp
        simp
        omega
      · simp [hp]
    · rw [if_neg fun hc => hm hc.2]
      refine iff_of_false (List.cons_ne_nil m mounts).symm fun hc => ?_
      have hp := hc m
      rw [List.count_cons_self, List.count_eq_zero.2 hm] at hp
      cases hp

theorem removeSandboxStorage_ok_iff {fault : Option Errno} {dir : Option ErrorKind} :
    (removeSandboxStorage fault dir p s).1 = .ok () ↔
      fault = none ∧ s.place p ∈ s.mounts ∧ dir = none := by
  constructor
  · intro h
    obtain ⟨o, hr, hp, ho⟩ := removeMounts_apply (fun _ => fault) [p] s
    rw [List.map_singleton] at hr ho
    rw [removeSandboxStorage] at h
    cases o with
    | panic => exact absurd rfl hp
    | err e =>
      rw [Act.bind_err hr] at h
      cases h
    | ok _ =>
      rw [Act.bind_ok hr] at h
      have hu := ho.1 rfl
      rw [unmounted] at hu
      split at hu
      · rename_i hc
        cases dir with
        | some e => cases h
        | none => exact ⟨hc.1, hc.2, rfl⟩
      · cases hu
  · rintro ⟨hf, hm, hd⟩
    obtain ⟨o, u, hr, -, -, -, -, -, hok⟩ := removeSandboxStorage_apply fault dir p s
    rw [hr]
    exact (hok ⟨hf, hm, hd⟩).1

theorem unsetAndRemoveSandboxStorage_ok_iff (fault : Option Errno) (dir : Option ErrorKind) :
    (unsetAndRemoveSandboxStorage fault dir p s).1 = .ok () ↔
      (p ∈ s.sandbox.storages → fault = none ∧ s.place p ∈ s.mounts ∧ dir = none) := by
  rw [unsetAndRemoveSandboxStorage, Act.bind_ok (uncountStorage_apply s p)]
  by_cases hm : p ∈ s.sandbox.storages
  · rw [if_pos (decide_eq_true hm), removeSandboxStorage_ok_iff, forall_prop_of_true hm]
    rfl
  · rw [if_neg (by simp [hm])]
    exact iff_of_true rfl fun h => absurd h hm

/-- The loop over the released storages succeeds exactly where each of its calls does. -/
theorem releaseStorages_ok_iff :
    (releaseStorages g n cmounts s).1 = .ok () ↔
      g.releases s.place n s.sandbox s.mounts cmounts := by
  constructor
  · intro h
    induction cmounts generalizing n s with
    | nil => trivial
    | cons m cmounts ih =>
      obtain ⟨o, u, hu, hp, hs, -, hl, -, hskip, hok⟩ :=
        unsetAndRemoveSandboxStorage_apply (g.releaseRefused n) (g.removeDir n) m s
      have hone := unsetAndRemoveSandboxStorage_ok_iff (p := m) (s := s)
        (g.releaseRefused n) (g.removeDir n)
      rw [hu] at hone
      rw [releaseStorages] at h
      cases o with
      | panic => exact absurd rfl hp
      | err e =>
        rw [Act.bind_err hu] at h
        cases h
      | ok _ =>
        rw [Act.bind_ok hu] at h
        have hrest := ih h
        rw [RemoveGuest.releases]
        by_cases hm : m ∈ s.sandbox.storages
        · have hc := hone.1 rfl hm
          rw [hs, hl, (hok hc hm).2] at hrest
          rw [if_pos hm]
          exact ⟨hc, hrest⟩
        · rw [hs, hl, (hskip hm).2, Sandbox.unsetSandboxStorage_of_notMem hm] at hrest
          rw [if_neg hm]
          exact hrest
  · intro h
    obtain ⟨t, ht, -⟩ := releaseStorages_ok h
    rw [ht]

theorem releaseContainer_ok_iff : (releaseContainer g cid s).1 = .ok () ↔
    unmounted g.refused s.mounts (s.recordedPlaces cid) = s.recordedPlaces cid ∧
      g.releases s.place 0 s.sandbox (s.mounts.diff (s.recordedPlaces cid)) (s.released cid) := by
  by_cases hu : unmounted g.refused s.mounts (s.recordedPlaces cid) = s.recordedPlaces cid
  · have hrest :
        (releaseStorages g 0 (s.released cid) (s.detach (s.recordedPlaces cid))).1 = .ok () ↔
          g.releases s.place 0 s.sandbox (s.mounts.diff (s.recordedPlaces cid))
            (s.released cid) :=
      releaseStorages_ok_iff
    rw [releaseContainer_pass hu, and_iff_right hu, ← hrest, Act.bind_apply]
    rcases releaseStorages g 0 (s.released cid) (s.detach (s.recordedPlaces cid)) with ⟨o, u⟩
    cases o with
    | ok _ => exact iff_of_true rfl rfl
    | err e => exact .rfl
    | panic => exact .rfl
  · obtain ⟨e, he⟩ := releaseContainer_err hu
    rw [he]
    exact iff_of_false nofun fun h => hu h.1

/-- A removal that gets as far as the recorded mounts succeeds exactly where these can be unmounted
and released. -/
theorem doRemoveContainer_ok_iff (h : req.Ready g s) : (doRemoveContainer req g s).1 = .ok () ↔
    unmounted g.refused s.mounts (s.recordedPlaces req.containerId) =
        s.recordedPlaces req.containerId ∧
      g.releases s.place 0 s.sandbox (s.mounts.diff (s.recordedPlaces req.containerId))
        (s.released req.containerId) := by
  have hstop : (s.stop req.containerId).sandbox.storages = s.sandbox.storages := rfl
  rw [h.eq, locked_fst _ h.free_stop, releaseContainer_ok_iff, RemoveGuest.releases_congr hstop]
  rfl

/-- A removal that releases no storage. -/
theorem doRemoveContainer_unreleased (h : req.Ready g s)
    (hu : unmounted g.refused s.mounts (s.recordedPlaces req.containerId) =
      s.recordedPlaces req.containerId)
    (hs : s.released req.containerId = []) : doRemoveContainer req g s =
      (.ok (), ((s.stop req.containerId).detach (s.recordedPlaces req.containerId)).onSandbox
        (Sandbox.forget req.containerId)) := by
  have hpass : releaseContainer g req.containerId (s.stop req.containerId) =
      (.ok (), ((s.stop req.containerId).detach (s.recordedPlaces req.containerId)).onSandbox
        (Sandbox.forget req.containerId)) := by
    have hs' : (s.stop req.containerId).released req.containerId = [] := hs
    rw [releaseContainer_pass (s := s.stop req.containerId) hu, hs']
    rfl
  rw [h.eq]
  exact locked_apply h.free_stop hpass nofun

/-- Where the recorded mounts are all that is mounted at their directories, the loop over the
released storages fails at its first one. -/
theorem releases_iff (hc : ∀ m ∈ s.recorded cid, s.mounts.count (s.place m) = 1) :
    g.releases s.place 0 s.sandbox (s.mounts.diff (s.recordedPlaces cid)) (s.released cid) ↔
      s.released cid = [] := by
  cases hr : s.released cid with
  | nil => exact iff_of_true trivial rfl
  | cons m cmounts =>
    obtain ⟨hrec, hm⟩ := List.mem_filter.1 (hr ▸ List.mem_cons_self : m ∈ s.released cid)
    have hgone : s.place m ∉ s.mounts.diff (s.recordedPlaces cid) := by
      have hplace : s.place m ∈ s.recordedPlaces cid := List.mem_map_of_mem hrec
      rw [← List.count_eq_zero, List.count_diff, hc m hrec]
      have hpos := List.count_pos_iff.2 hplace
      omega
    rw [RemoveGuest.releases, if_pos (of_decide_eq_true hm)]
    exact iff_of_false (fun h => hgone h.1.2.1) (List.cons_ne_nil m cmounts)

theorem released_eq_nil_iff :
    s.released cid = [] ↔ ∀ m ∈ s.recorded cid, m ∉ s.sandbox.storages := by
  simp [Agent.released]

theorem count_le_iff_nodup (hc : ∀ m ∈ mounts, layers.count m = 1) :
    (∀ p, mounts.count p ≤ layers.count p) ↔ mounts.Nodup := by
  rw [List.nodup_iff_count_le_one]
  apply forall_congr'
  intro p
  by_cases hp : p ∈ mounts
  · rw [hc p hp]
  · rw [List.count_eq_zero.2 hp]
    exact iff_of_true (Nat.zero_le _) (Nat.zero_le _)

theorem doRemoveContainer_mountedOnce_ok_iff (h : req.Ready g s) (hg : g.Obliges)
    (hc : ∀ m ∈ s.recorded req.containerId, s.mounts.count (s.place m) = 1) :
    (doRemoveContainer req g s).1 = .ok () ↔ (s.recordedPlaces req.containerId).Nodup ∧
      ∀ m ∈ s.recorded req.containerId, m ∉ s.sandbox.storages := by
  have hplaces : ∀ p ∈ s.recordedPlaces req.containerId, s.mounts.count p = 1 :=
    List.forall_mem_map.2 hc
  rw [doRemoveContainer_ok_iff h, unmounted_eq_iff hg.refused, count_le_iff_nodup hplaces,
    releases_iff hc, released_eq_nil_iff]

/-- Where each recorded mount point is mounted once, it is unmounted once and the container removed
exactly if the record has no directory twice and no point that is counted as a storage of the
sandbox. -/
theorem doRemoveContainer_removesOnce_iff (req : RemoveContainerRequest) (g : RemoveGuest)
    (s : Agent) (h : req.Ready g s) (hg : g.Obliges)
    (hc : ∀ m ∈ s.recorded req.containerId, s.mounts.count (s.place m) = 1) :
    RemovesOnce req g s ↔ (s.recordedPlaces req.containerId).Nodup ∧
      ∀ m ∈ s.recorded req.containerId, m ∉ s.sandbox.storages := by
  have hok := doRemoveContainer_mountedOnce_ok_iff h hg hc
  have hplaces : ∀ p ∈ s.recordedPlaces req.containerId, s.mounts.count p = 1 :=
    List.forall_mem_map.2 hc
  rw [← hok]
  constructor
  · exact RemovesOnce.ok
  · intro ho
    obtain ⟨hu, hr⟩ := (doRemoveContainer_ok_iff h).1 ho
    have hrun := doRemoveContainer_unreleased h hu ((releases_iff hc).1 hr)
    have hn := (hok.1 ho).1
    constructor
    · exact ho
    · intro p hp
      rw [hrun]
      change (s.mounts.diff _).count p + 1 = _
      rw [List.count_diff, hplaces p hp, List.count_eq_one_of_mem hn hp]
    · intro p hp
      rw [hrun]
      change (s.mounts.diff _).count p = _
      rw [List.count_diff, List.count_eq_zero.2 hp, Nat.sub_zero]
    · intro cid
      rw [hrun]
      change ((s.sandbox.containers.update _ _).erase _).lookup cid = _
      rw [Table.lookup_erase, Table.lookup_update]
      split
      · rfl
      · rfl
    · intro cid
      rw [hrun]
      exact Table.lookup_erase _ _ _

theorem obligingRemove_obliges : obligingRemove.Obliges :=
  ⟨fun _ => rfl, fun _ => rfl, fun _ => rfl⟩

/-- The agent once a container with a disk runs. -/
def oneDisk : Agent :=
  (emptySandbox.create (createShell "disk" "blk" "/dev/vda") obligingCreate).agent

theorem doRemoveContainer_removesOnce_disk : RemovesOnce ⟨"disk", 0⟩ obligingRemove oneDisk :=
  (doRemoveContainer_removesOnce_iff ⟨"disk", 0⟩ obligingRemove oneDisk
    ⟨rfl, by decide, rfl, .inl rfl⟩ obligingRemove_obliges (by decide)).2 (by decide)

/-- An ephemeral storage is unmounted by the first loop, and once more by the second. -/
theorem doRemoveContainer_overlaps : ¬ ∀ (req : RemoveContainerRequest) (g : RemoveGuest)
    (s : Agent), req.Ready g s → g.Obliges →
    (∀ m ∈ s.recorded req.containerId, s.mounts.count (s.place m) = 1) →
    (∀ m ∈ s.recorded req.containerId, ∀ count, s.sandbox.storages.lookup m = some count →
      count = 1) → RemovesOnce req g s := by
  intro h
  have hone : onePod.sandbox.storages.lookup "/p" = some 1 := by decide
  have hrec : onePod.recorded "pod" = ["/p"] := by decide
  have hr := h ⟨"pod", 0⟩ obligingRemove onePod ⟨rfl, by decide, rfl, .inl rfl⟩
    obligingRemove_obliges (by decide) fun m hm count hc => by
      change m ∈ onePod.recorded "pod" at hm
      rw [hrec] at hm
      cases List.mem_singleton.1 hm
      exact (Option.some.inj (hone.symm.trans hc)).symm
  have hfails : (doRemoveContainer ⟨"pod", 0⟩ obligingRemove onePod).1 = .err (.nix .EINVAL) := by
    decide
  cases hfails.symm.trans hr.ok

end KataAgent
