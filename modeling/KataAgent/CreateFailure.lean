import KataAgent.StorageReferences

namespace KataAgent
open Fallible
set_option autoImplicit true

variable {sb : Sandbox} {s t : Agent} {p q : String} {points : List String}
  {req : CreateContainerRequest} {g : CreateGuest}

/-- The counter of a point after some more references to it; the sum wraps around. -/
theorem Sandbox.lookup_countAll (sb : Sandbox) (points : List String) (p : String) :
    (sb.countAll points).storages.lookup p =
      if p ∈ points then
        some ((sb.storages.lookup p).getD 0 + UInt32.ofNat (points.count p))
      else sb.storages.lookup p := by
  induction points generalizing sb with
  | nil => rfl
  | cons q points ih =>
    have hall := ih (sb.setSandboxStorage q).2
    rw [Sandbox.lookup_setSandboxStorage] at hall
    unfold Sandbox.countAll at *
    rw [List.foldl_cons, hall]
    by_cases hp : p = q
    · subst hp
      have hget : ((sb.storages.lookup p).elim 1 (· + 1) : UInt32) =
          (sb.storages.lookup p).getD 0 + 1 := by
        cases sb.storages.lookup p with
        | none => rfl
        | some count => rfl
      rw [if_pos List.mem_cons_self, if_pos rfl, hget, List.count_cons_self]
      split
      · rw [Option.getD_some, UInt32.ofNat_add, UInt32.add_assoc, UInt32.add_comm 1]
        rfl
      · rename_i hn
        rw [List.count_eq_zero_of_not_mem hn]
        rfl
    · simp [hp, Ne.symm hp]

theorem Sandbox.countAll_ne (hn : points ≠ []) (hl : points.length < 2 ^ 32) :
    (sb.countAll points).storages ≠ sb.storages := by
  intro h
  obtain ⟨p, rest, rfl⟩ := List.exists_cons_of_ne_nil hn
  have hp := congrArg (Finmap.lookup p) h
  rw [Sandbox.lookup_countAll, if_pos List.mem_cons_self] at hp
  have hc : 0 < (p :: rest).count p := List.count_pos_iff.2 List.mem_cons_self
  have hle : (p :: rest).count p ≤ (p :: rest).length := List.count_le_length
  cases hs : sb.storages.lookup p with
  | none =>
    rw [hs] at hp
    cases hp
  | some count =>
    rw [hs, Option.getD_some] at hp
    have hsum := congrArg UInt32.toNat (Option.some.inj hp)
    have hlt := count.toNat_lt
    rw [UInt32.toNat_add, UInt32.toNat_ofNat'] at hsum
    omega

/-- The part of the agent that a failed create must not change. -/
structure Agent.SameRecords (s t : Agent) : Prop where
  containers : t.sandbox.containers = s.sandbox.containers
  containerMounts : t.sandbox.containerMounts = s.sandbox.containerMounts
  storages : t.sandbox.storages = s.sandbox.storages
  mounts : ∀ p, p ∈ t.mounts ↔ p ∈ s.mounts

/-- A create leaves nothing behind when it fails: it reaches no counted storage, mounts only
where something is mounted already and, if all its storages succeed, records the mounts that the
container's id has already. -/
def CreateContainerRequest.Traceless (req : CreateContainerRequest) (g : CreateGuest)
    (s : Agent) : Prop :=
  ¬ reachesCounted g.storages req.storages ∧
    (∀ p ∈ mountedPoints g.storages req.storages, s.place p ∈ s.mounts) ∧
    (handledAll g.storages s.sandbox req.storages →
      s.sandbox.containerMounts.lookup req.containerId =
        some (req.storages.map Storage.mountPoint))

theorem mem_mounts_iff (place : String → String) (mounted mounts : List String) :
    (∀ p, p ∈ (mounted.map place).reverse ++ mounts ↔ p ∈ mounts) ↔
      ∀ p ∈ mounted, place p ∈ mounts := by
  rw [← List.forall_mem_map (P := (· ∈ mounts))]
  constructor
  · intro h p hp
    exact (h p).1 (List.mem_append_left _ (List.mem_reverse.2 hp))
  · intro h p
    rw [List.mem_append, List.mem_reverse]
    exact ⟨fun hp => hp.elim (h p) id, .inr⟩

/-- The counters of a call that reaches a counted storage are not what they were. -/
theorem addStorages_counts_ne (hk : reachesCounted g.storages req.storages)
    (h : addStorages g.storages req.storages s = (o, t)) (ho : o ≠ .panic) :
    t.sandbox.storages ≠ s.sandbox.storages := by
  obtain ⟨points, hl, hs, hn, -⟩ := addStorages_counts h ho
  rw [hs]
  exact Sandbox.countAll_ne (hn hk) (hl.trans_lt req.bounded)

theorem doCreateContainer_err_unchanged_iff (h : doCreateContainer req g s = (.err e, t)) :
    s.SameRecords t ↔ (req.reachesStorages g → req.Traceless g s) := by
  obtain ⟨hr, rfl⟩ | ⟨hr, ha | ⟨m, u, ha, hs, hm⟩⟩ := doCreateContainer_err h
  · exact ⟨fun _ h => absurd h hr, fun _ => ⟨rfl, rfl, rfl, fun _ => Iff.rfl⟩⟩
  · rw [imp_iff_right hr]
    by_cases hk : reachesCounted g.storages req.storages
    · exact ⟨fun h => absurd h.storages (addStorages_counts_ne hk ha nofun),
        fun h => absurd hk h.1⟩
    · have hall : ¬ handledAll g.storages s.sandbox req.storages := fun hall => by
        have hok := (addStorages_plain_ok hk s).2 ⟨hall, rfl⟩
        rw [ha] at hok
        cases hok
      have ht := addStorages_mounts hk s
      rw [ha] at ht
      subst ht
      exact ⟨fun h => ⟨hk, (mem_mounts_iff _ _ _).1 h.mounts, fun h => absurd h hall⟩,
        fun h => ⟨rfl, rfl, rfl, (mem_mounts_iff _ _ _).2 h.2.1⟩⟩
  · rw [imp_iff_right hr]
    by_cases hk : reachesCounted g.storages req.storages
    · refine ⟨fun h => absurd ?_ (addStorages_counts_ne hk ha nofun), fun h => absurd hk h.1⟩
      rw [← h.storages, hs]
      rfl
    · obtain ⟨hall, rfl⟩ := (addStorages_plain_ok hk s).1 (congrArg Prod.fst ha)
      have hu := addStorages_mounts hk s
      rw [ha] at hu
      subst hu
      constructor
      · intro h
        refine ⟨hk, (mem_mounts_iff _ _ _).1 fun p => ?_, fun _ => ?_⟩
        · rw [← h.mounts p, hm]
        · exact Table.insert_eq_self_iff.1
            ((congrArg Sandbox.containerMounts hs).symm.trans h.containerMounts)
      · rintro ⟨-, hmounts, hrecord⟩
        refine ⟨by rw [hs]; rfl, ?_, by rw [hs]; rfl, fun p => ?_⟩
        · rw [hs]
          exact Table.insert_eq_self_iff.2 (hrecord hall)
        · rw [hm]
          exact (mem_mounts_iff _ _ _).2 hmounts p

/-- The agent once one container with an ephemeral storage runs. -/
def onePod : Agent :=
  (emptySandbox.create (createShell "pod" "ephemeral" "tmpfs") obligingCreate).agent

theorem doCreateContainer_err_unchanged_iff_noDriver :
    onePod.SameRecords onePod ↔ ((createShell "next" "floppy" "").reachesStorages obligingCreate →
      (createShell "next" "floppy" "").Traceless obligingCreate onePod) :=
  doCreateContainer_err_unchanged_iff
    (e := .errorCode ("Failed to find the storage handler " ++ "floppy")) rfl

/-- A second create of a running container's id fails at its fifo, but by then the container's
mounts are forgotten and its storage is counted twice. -/
theorem doCreateContainer_err_changes : ¬ ∀ req g s e t,
    doCreateContainer req g s = (.err e, t) → s.SameRecords t := by
  intro h
  have hs := h (createShell "pod" "ephemeral" "tmpfs") obligingCreate onePod
    (.errorCode "exec fifo exists") _ rfl
  have hm := hs.containerMounts
  revert hm
  decide

end KataAgent
