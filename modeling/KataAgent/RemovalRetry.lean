import KataAgent.RemovalOverlap
import KataAgent.RemovalVariants

namespace KataAgent
open Fallible
set_option autoImplicit true

variable {g g' : RemoveGuest} {req : RemoveContainerRequest} {cid p : String} {s t : Agent}
  {refused : Nat → Option Errno} {mounts cmounts layers : List String}

/-- The first of the recorded mounts is the one that was not unmounted. -/
def FirstRefused (g : RemoveGuest) (s : Agent) (cid : String) : Prop :=
  ∀ m ∈ (s.recorded cid).head?, ¬ (g.refused 0 = none ∧ s.place m ∈ s.mounts)

/-- How many releases of a storage find it counted. -/
def Sandbox.uses (sb : Sandbox) (path : String) : Nat :=
  (sb.storages.lookup path).elim 0 fun count => (count - 1).toNat + 1

/-- The points that the release loop finds counted, each as often as it does. -/
def Sandbox.foundCounted : Sandbox → List String → List String
  | _, [] => []
  | sb, m :: cmounts =>
    if m ∈ sb.storages then m :: (sb.unsetSandboxStorage m).2.foundCounted cmounts
    else sb.foundCounted cmounts

/-- Something is mounted on the recorded directories often enough for both loops. -/
def Agent.Removable (s : Agent) (cid : String) : Prop :=
  ∀ p ∈ s.recordedPlaces cid, (s.recordedPlaces cid).count p +
    ((s.sandbox.foundCounted (s.released cid)).map s.place).count p ≤ s.mounts.count p

instance FirstRefused.decidable : Decidable (FirstRefused g s cid) :=
  inferInstanceAs (Decidable (∀ m ∈ _, _))

instance Agent.Removable.decidable : Decidable (s.Removable cid) :=
  inferInstanceAs (Decidable (∀ p ∈ _, _))

/-- The mounts on a directory, twice, and how often it was unmounted or deleted. An unmount lowers
it, and a deletion raises it. -/
def Agent.potential (s : Agent) (p : String) : Nat := 2 * s.mounts.count p + s.detached.count p

theorem unmounted_count_le (refused : Nat → Option Errno) (layers mounts : List String)
    (p : String) :
    (unmounted refused layers mounts).count p ≤ layers.count p := by
  induction mounts generalizing refused layers with
  | nil => exact Nat.zero_le _
  | cons m mounts ih =>
    rw [unmounted]
    split
    · rename_i h
      have hrest := ih (fun n => refused (n + 1)) (layers.erase m)
      rw [List.count_erase] at hrest
      rw [List.count_cons]
      by_cases hp : m = p
      · subst hp
        have hpos := List.count_pos_iff.2 h.2
        simp only [beq_self_eq_true, if_true] at hrest ⊢
        omega
      · simp only [beq_iff_eq, hp, if_false, Nat.sub_zero, Nat.add_zero] at hrest ⊢
        exact hrest
    · exact Nat.zero_le _

theorem potential_detach {points : List String} (h : points.count p ≤ s.mounts.count p) :
    (s.detach points).potential p + points.count p = s.potential p := by
  have hm : (s.detach points).mounts.count p = s.mounts.count p - points.count p :=
    List.count_diff ..
  have hd : (s.detach points).detached.count p = s.detached.count p + points.count p :=
    List.count_append
  rw [Agent.potential, Agent.potential, hm, hd]
  omega

theorem removeSandboxStorage_potential {fault : Option Errno} {dir : Option ErrorKind} {m : String}
    {o : Outcome ErrorKind Unit} (h : removeSandboxStorage fault dir m s = (o, t)) :
    t.potential p ≤ s.potential p ∧ (o = .ok () → t.potential p = s.potential p) := by
  obtain ⟨o', hr, hp, ho⟩ := removeMounts_apply (fun _ => fault) [m] s
  rw [List.map_singleton] at hr ho
  have hd := potential_detach (unmounted_count_le (fun _ => fault) s.mounts [s.place m] p)
  rw [removeSandboxStorage] at h
  cases o' with
  | panic => exact absurd rfl hp
  | err e =>
    rw [Act.bind_err hr] at h
    cases h
    refine ⟨by omega, ?_⟩
    intro ho
    cases ho
  | ok _ =>
    rw [Act.bind_ok hr] at h
    rw [ho.1 rfl] at h hd
    cases dir with
    | some e =>
      cases h
      refine ⟨by omega, ?_⟩
      intro ho
      cases ho
    | none =>
      cases h
      have hback : ({ s.detach [s.place m] with
          detached := (s.detach [s.place m]).detached ++ [s.place m] } : Agent).potential p =
            (s.detach [s.place m]).potential p + [s.place m].count p := by
        change 2 * (s.detach [s.place m]).mounts.count p +
          ((s.detach [s.place m]).detached ++ [s.place m]).count p = _
        rw [List.count_append, ← Nat.add_assoc]
        rfl
      have heq := hback.trans hd
      exact ⟨Nat.le_of_eq heq, fun _ => heq⟩

theorem Sandbox.uses_eq_zero {sb : Sandbox} (h : p ∉ sb.storages) : sb.uses p = 0 := by
  rw [Sandbox.uses, Table.notMem_iff.1 h]
  rfl

/-- A release that finds the storage counted takes one use away. -/
theorem Sandbox.uses_unsetSandboxStorage {sb : Sandbox} {m : String} (h : m ∈ sb.storages) :
    (sb.unsetSandboxStorage m).2.uses p + (if p = m then 1 else 0) = sb.uses p := by
  obtain ⟨count, hl⟩ := Finmap.mem_iff.1 h
  rw [Sandbox.unsetSandboxStorage, hl]
  dsimp only
  split
  · rename_i hlast
    have hz : (count - 1).toNat < 1 := hlast
    rw [Sandbox.uses, Sandbox.uses, Table.lookup_erase]
    by_cases hp : p = m
    · rw [if_pos hp, if_pos hp, hp, hl, Option.elim_none, Option.elim_some]
      omega
    · rw [if_neg hp, if_neg hp]
      rfl
  · rename_i hlast
    have hz : ¬ (count - 1).toNat < 1 := hlast
    have hone : (1 : UInt32) ≤ count - 1 := Nat.le_of_not_lt hz
    have h1 : (1 : UInt32).toNat = 1 := rfl
    rw [Sandbox.uses, Sandbox.uses, Table.lookup_insert]
    by_cases hp : p = m
    · rw [if_pos hp, if_pos hp, hp, hl, Option.elim_some, Option.elim_some,
        UInt32.toNat_sub_of_le _ _ hone]
      omega
    · rw [if_neg hp, if_neg hp]
      rfl

theorem Sandbox.count_foundCounted (sb : Sandbox) (cmounts : List String) (p : String) :
    (sb.foundCounted cmounts).count p = min (cmounts.count p) (sb.uses p) := by
  induction cmounts generalizing sb with
  | nil => exact (Nat.zero_min _).symm
  | cons m cmounts ih =>
    rw [Sandbox.foundCounted, List.count_cons]
    by_cases hm : m ∈ sb.storages
    · have hone := Sandbox.uses_unsetSandboxStorage (p := p) hm
      rw [if_pos hm, List.count_cons, ih]
      by_cases hp : m = p
      · rw [if_pos hp.symm] at hone
        simp only [beq_iff_eq, hp, if_true]
        rw [hp] at hone
        omega
      · rw [if_neg (Ne.symm hp)] at hone
        simp only [beq_iff_eq, hp, if_false, Nat.add_zero] at hone ⊢
        rw [hone]
    · rw [if_neg hm, ih]
      by_cases hp : m = p
      · rw [← hp, Sandbox.uses_eq_zero hm, Nat.min_zero, Nat.min_zero]
      · simp only [beq_iff_eq, hp, if_false, Nat.add_zero]

theorem Sandbox.foundCounted_subset {sb : Sandbox} : sb.foundCounted cmounts ⊆ cmounts := by
  intro p hp
  rw [← List.count_pos_iff, Sandbox.count_foundCounted] at hp
  exact List.count_pos_iff.1 (lt_min_iff.1 hp).1

/-- The release loop of a guest that obliges succeeds where something is mounted on the directory of
every point that it finds counted, once for each time. -/
theorem RemoveGuest.Obliges.releases_iff (hg : g.Obliges) {place : String → String}
    {sb : Sandbox} : g.releases place n sb layers cmounts ↔
      ∀ p, ((sb.foundCounted cmounts).map place).count p ≤ layers.count p := by
  have hall : g.releases place n sb layers cmounts ↔ unmounted (fun _ => none) layers
      ((sb.foundCounted cmounts).map place) = (sb.foundCounted cmounts).map place := by
    induction cmounts generalizing n sb layers with
    | nil => exact iff_of_true trivial rfl
    | cons m cmounts ih =>
      rw [RemoveGuest.releases, Sandbox.foundCounted]
      by_cases hm : m ∈ sb.storages
      · rw [if_pos hm, if_pos hm, List.map_cons, unmounted, ih]
        by_cases hl : place m ∈ layers
        · rw [and_iff_right ⟨hg.releaseRefused n, hl, hg.removeDir n⟩, if_pos ⟨rfl, hl⟩,
            List.cons.injEq, and_iff_right rfl]
        · rw [if_neg fun h => hl h.2]
          exact iff_of_false (fun h => hl h.1.2.1) (List.cons_ne_nil _ _).symm
      · rw [if_neg hm, if_neg hm, ih]
  rw [hall]
  exact unmounted_eq_iff fun _ => rfl

/-- The release of a storage keeps the potential, unless it stops between its two halves. -/
theorem unsetAndRemove_potential {fault : Option Errno} {dir : Option ErrorKind} {m : String}
    {o : Outcome ErrorKind Unit} (h : unsetAndRemoveSandboxStorage fault dir m s = (o, t)) :
    t.potential p ≤ s.potential p ∧ (o = .ok () → t.potential p = s.potential p) := by
  rw [unsetAndRemoveSandboxStorage, Act.bind_ok (uncountStorage_apply s m)] at h
  split at h
  · exact removeSandboxStorage_potential (s := s.setSandbox (s.sandbox.unsetSandboxStorage m).2) h
  · cases h
    exact ⟨Nat.le_refl _, fun _ => rfl⟩

theorem Sandbox.unsetSandboxStorage_records (sb : Sandbox) (m : String) :
    (sb.unsetSandboxStorage m).2.containers = sb.containers ∧
      (sb.unsetSandboxStorage m).2.containerMounts = sb.containerMounts := by
  rw [Sandbox.unsetSandboxStorage]
  cases sb.storages.lookup m with
  | none => exact ⟨rfl, rfl⟩
  | some count =>
    dsimp only
    split
    · exact ⟨rfl, rfl⟩
    · exact ⟨rfl, rfl⟩

/-- The loop over the released storages leaves the records of the containers alone. -/
theorem releaseStorages_records (g : RemoveGuest) (n : Nat) (cmounts : List String) (s : Agent) :
    (releaseStorages g n cmounts s).2.sandbox.containers = s.sandbox.containers ∧
      (releaseStorages g n cmounts s).2.sandbox.containerMounts = s.sandbox.containerMounts := by
  induction cmounts generalizing n s with
  | nil => exact ⟨rfl, rfl⟩
  | cons m cmounts ih =>
    obtain ⟨o, u, hu, hp, hs, -⟩ :=
      unsetAndRemoveSandboxStorage_apply (g.releaseRefused n) (g.removeDir n) m s
    have hone := Sandbox.unsetSandboxStorage_records s.sandbox m
    rw [← hs] at hone
    rw [releaseStorages]
    cases o with
    | panic => exact absurd rfl hp
    | err e =>
      rw [Act.bind_err hu]
      exact hone
    | ok _ =>
      rw [Act.bind_ok hu]
      obtain ⟨hc, hm⟩ := ih (n + 1) u
      exact ⟨hc.trans hone.1, hm.trans hone.2⟩

theorem releaseStorages_potential {o : Outcome ErrorKind Unit}
    (h : releaseStorages g n cmounts s = (o, t)) :
    t.potential p ≤ s.potential p ∧ (o = .ok () → t.potential p = s.potential p) := by
  induction cmounts generalizing n s with
  | nil =>
    cases h
    exact ⟨Nat.le_refl _, fun _ => rfl⟩
  | cons m cmounts ih =>
    rw [releaseStorages] at h
    rcases Act.bind_cases h with ⟨ho, ht⟩ | ⟨⟨⟩, u, hu, h⟩
    · rw [← ht]
      exact ⟨(unsetAndRemove_potential rfl).1, fun hok => absurd hok (ho ())⟩
    · obtain ⟨hle, heq⟩ := unsetAndRemove_potential (p := p) hu
      obtain ⟨hle', heq'⟩ := ih h
      exact ⟨hle'.trans hle, fun ho => (heq' ho).trans (heq rfl)⟩

/-- A removal stops in its pass over the recorded mounts or in the release loop, or it succeeds. -/
theorem releaseContainer_cases {o : Outcome ErrorKind Unit}
    (h : releaseContainer g cid s = (o, t)) :
    (o ≠ .ok () ∧ t = s.detach (unmounted g.refused s.mounts (s.recordedPlaces cid))) ∨
    (unmounted g.refused s.mounts (s.recordedPlaces cid) = s.recordedPlaces cid ∧
      ((o ≠ .ok () ∧ (releaseStorages g 0 (s.released cid) (s.detach (s.recordedPlaces cid))).2 = t) ∨
        ∃ u, releaseStorages g 0 (s.released cid) (s.detach (s.recordedPlaces cid)) = (.ok (), u) ∧
          t = u.onSandbox (Sandbox.forget cid))) := by
  by_cases hu : unmounted g.refused s.mounts (s.recordedPlaces cid) = s.recordedPlaces cid
  · rw [releaseContainer_pass hu] at h
    refine .inr ⟨hu, ?_⟩
    rcases Act.bind_cases h with ⟨ho, ht⟩ | ⟨⟨⟩, u, hr, h⟩
    · exact .inl ⟨ho (), ht⟩
    · cases h
      exact .inr ⟨u, hr, rfl⟩
  · obtain ⟨e, he⟩ := releaseContainer_err hu
    cases he.symm.trans h
    exact .inl ⟨nofun, rfl⟩

/-- What a removal takes off on its pass over the recorded mounts is missing from the potential. -/
theorem releaseContainer_potential {o : Outcome ErrorKind Unit}
    (h : releaseContainer g cid s = (o, t)) :
    t.potential p + (unmounted g.refused s.mounts (s.recordedPlaces cid)).count p ≤ s.potential p ∧
      (o = .ok () → t.potential p + (s.recordedPlaces cid).count p = s.potential p) := by
  have hd := potential_detach (unmounted_count_le g.refused s.mounts (s.recordedPlaces cid) p)
  rcases releaseContainer_cases h with ⟨ho, rfl⟩ | ⟨hu, ⟨ho, rfl⟩ | ⟨u, hr, rfl⟩⟩
  · exact ⟨Nat.le_of_eq hd, fun hok => absurd hok ho⟩
  · have hle := (releaseStorages_potential (p := p)
      (rfl : releaseStorages g 0 (s.released cid) (s.detach (s.recordedPlaces cid)) = _)).1
    rw [hu] at hd ⊢
    exact ⟨by omega, fun hok => absurd hok ho⟩
  · have heq := (releaseStorages_potential (p := p) hr).2 rfl
    have hsame : (u.onSandbox (Sandbox.forget cid)).potential p = u.potential p := rfl
    rw [hu] at hd ⊢
    rw [hsame]
    exact ⟨by omega, fun _ => by omega⟩

theorem releaseContainer_records {o : Outcome ErrorKind Unit}
    (h : releaseContainer g cid s = (o, t)) (ho : o ≠ .ok ()) :
    t.sandbox.containers = s.sandbox.containers ∧
      t.sandbox.containerMounts = s.sandbox.containerMounts := by
  rcases releaseContainer_cases h with ⟨-, rfl⟩ | ⟨hu, ⟨-, rfl⟩ | ⟨u, hr, rfl⟩⟩
  · exact ⟨rfl, rfl⟩
  · exact releaseStorages_records g 0 (s.released cid) (s.detach (s.recordedPlaces cid))
  · rw [releaseContainer_pass hu, Act.bind_ok hr] at h
    cases h
    exact absurd rfl ho

theorem RemoveContainerRequest.Ready.apply (h : req.Ready g s) : doRemoveContainer req g s =
    releaseContainer g req.containerId (s.stop req.containerId) := by
  rw [h.eq]
  rcases hr : releaseContainer g req.containerId (s.stop req.containerId) with ⟨o, t⟩
  have hp := releaseContainer_safe g req.containerId (s.stop req.containerId)
  rw [hr] at hp
  exact locked_apply h.free_stop hr hp

theorem doRemoveContainer_place : (doRemoveContainer req g s).2.place = s.place := by
  by_cases h : req.Ready g s
  · rw [h.apply]
    exact releaseContainer_preserves (I := fun a => a.place = s.place) (fun _ _ _ ha => ha)
      (fun _ _ ha => ha) g req.containerId _ rfl
  · exact (doRemoveContainer_not_ready (f := Agent.place) (fun _ _ => rfl) (fun _ _ => rfl) h).2

/-- A removal that fails keeps the container and its record. -/
theorem RemoveContainerRequest.Ready.records (h : req.Ready g s)
    (hf : (doRemoveContainer req g s).1 ≠ .ok ()) :
    (doRemoveContainer req g s).2.sandbox.containers =
        (s.stop req.containerId).sandbox.containers ∧
      (doRemoveContainer req g s).2.sandbox.containerMounts = s.sandbox.containerMounts := by
  rw [h.apply] at hf ⊢
  exact releaseContainer_records rfl hf

/-- The request can be sent again. -/
theorem RemoveContainerRequest.Ready.retry (h : req.Ready g s) (h' : req.Ready g' s)
    (hf : (doRemoveContainer req g s).1 ≠ .ok ()) :
    req.Ready g' (doRemoveContainer req g s).2 := by
  have hfree : Act.Preserves (fun a => a.poisoned = false) (releaseContainer g req.containerId) :=
    releaseContainer_preserves (fun _ _ _ ha => ha) (fun _ _ ha => ha) g req.containerId
  have hpresent : req.containerId ∈ (s.stop req.containerId).sandbox.containers :=
    Table.mem_update.2 h.present
  constructor
  · rw [h.apply]
    exact hfree (s.stop req.containerId) h.free_stop
  · rw [(h.records hf).1]
    exact hpresent
  · exact h'.destroyed
  · exact h'.inTime

theorem doRemoveContainer_gone (h : req.Ready g s) (ho : (doRemoveContainer req g s).1 = .ok ()) :
    req.containerId ∉ (doRemoveContainer req g s).2.sandbox.containers := by
  rw [h.apply] at ho ⊢
  obtain ⟨hu, hr⟩ := releaseContainer_ok_iff.1 ho
  obtain ⟨t, ht, hs, -⟩ := releaseContainer_ok hu hr
  rw [ht, hs]
  exact Finmap.notMem_erase_self

/-- Where nothing is refused, a removal succeeds exactly if the recorded mounts are mounted often
enough. -/
theorem doRemoveContainer_removable_iff (h : req.Ready g s) (hg : g.Obliges) :
    (doRemoveContainer req g s).1 = .ok () ↔ s.Removable req.containerId := by
  rw [doRemoveContainer_ok_iff h, unmounted_eq_iff hg.refused, hg.releases_iff, ← forall_and]
  apply forall_congr'
  intro p
  rw [List.count_diff]
  constructor
  · intro hp _
    omega
  · intro hp
    by_cases hm : p ∈ s.recordedPlaces req.containerId
    · have hpos := hp hm
      omega
    · have hfound : p ∉ (s.sandbox.foundCounted (s.released req.containerId)).map s.place := by
        intro hf
        obtain ⟨m, hfound, rfl⟩ := List.mem_map.1 hf
        have hrel : m ∈ s.released req.containerId := Sandbox.foundCounted_subset hfound
        exact hm (List.mem_map_of_mem (List.mem_of_mem_filter hrel))
      rw [List.count_eq_zero.2 hm, List.count_eq_zero.2 hfound]
      omega

theorem unmounted_eq_nil_iff :
    unmounted g.refused s.mounts (s.recordedPlaces cid) = [] ↔ FirstRefused g s cid := by
  rw [FirstRefused, Agent.recordedPlaces]
  cases s.recorded cid with
  | nil =>
    apply iff_of_true rfl
    intro m hm
    cases hm
  | cons m mounts =>
    rw [List.map_cons, unmounted]
    split
    · rename_i h
      exact iff_of_false (List.cons_ne_nil _ _) fun hn => hn m rfl h
    · rename_i h
      apply iff_of_true rfl
      rintro _ ⟨⟩
      exact h

theorem Agent.stop_stop : (s.stop cid).stop cid = s.stop cid := by
  have hsame : (s.stop cid).sandbox.setStatus cid "stopped" = (s.stop cid).sandbox := by
    rw [Sandbox.setStatus]
    congr 1
    apply Finmap.ext_lookup
    intro x
    change ((s.sandbox.containers.update _ _).update _ _).lookup x =
      (s.sandbox.containers.update _ _).lookup x
    rw [Table.lookup_update]
    split
    · rename_i hx
      rw [hx, Table.lookup_update, if_pos rfl, Option.map_map]
      rfl
    · rfl
  rw [Agent.stop, Agent.onSandbox, hsame]
  rfl

/-- A removal that failed at its first unmount leaves the container stopped and nothing else. -/
theorem doRemoveContainer_firstRefused (h : req.Ready g s)
    (hf : (doRemoveContainer req g s).1 ≠ .ok ()) (hr : FirstRefused g s req.containerId) :
    (doRemoveContainer req g s).2 = s.stop req.containerId := by
  have hu := unmounted_eq_nil_iff.2 hr
  by_cases hrec : s.recorded req.containerId = []
  · have hrel : s.released req.containerId = [] := by
      rw [Agent.released, hrec]
      rfl
    have hrec : s.recordedPlaces req.containerId = [] := by
      rw [Agent.recordedPlaces, hrec]
      rfl
    have hok := congrArg Prod.fst (doRemoveContainer_unreleased h (hu.trans hrec.symm) hrel)
    exact absurd hok hf
  · have hne : unmounted g.refused (s.stop req.containerId).mounts
        ((s.stop req.containerId).recordedPlaces req.containerId) ≠
          (s.stop req.containerId).recordedPlaces req.containerId := by
      intro hc
      exact hrec (List.map_eq_nil_iff.1 (hc.symm.trans hu))
    obtain ⟨e, he⟩ := releaseContainer_err hne
    rw [h.apply, he]
    change (s.stop req.containerId).detach (unmounted g.refused s.mounts (s.recordedPlaces _)) = _
    rw [hu, Agent.detach, List.diff_nil, List.append_nil]

/-- Where nothing is mounted any more at the first recorded point, a removal fails at it. -/
theorem doRemoveContainer_stuck {m : String} (hm : (s.recorded req.containerId).head? = some m)
    (hn : s.place m ∉ s.mounts) : (doRemoveContainer req g s).1 ≠ .ok () ∧
      (doRemoveContainer req g s).2.place = s.place ∧
      (doRemoveContainer req g s).2.mounts = s.mounts ∧
      (doRemoveContainer req g s).2.sandbox.containerMounts = s.sandbox.containerMounts := by
  by_cases h : req.Ready g s
  · have hr : FirstRefused g s req.containerId := by
      intro p hp hc
      cases hm.symm.trans hp
      exact hn hc.2
    have hf : (doRemoveContainer req g s).1 ≠ .ok () := by
      intro ho
      have hu := ((doRemoveContainer_ok_iff h).1 ho).1
      rw [unmounted_eq_nil_iff.2 hr, eq_comm, Agent.recordedPlaces, List.map_eq_nil_iff] at hu
      rw [hu] at hm
      cases hm
    rw [doRemoveContainer_firstRefused h hf hr]
    exact ⟨hf, rfl, rfl, rfl⟩
  · obtain ⟨hf, hs⟩ := doRemoveContainer_not_ready
      (f := fun s : Agent => (s.place, s.mounts, s.sandbox.containerMounts)) (fun _ _ => rfl)
      (fun _ _ => rfl) h
    obtain ⟨hplace, hrest⟩ := Prod.mk.inj hs
    obtain ⟨hmounts, hrec⟩ := Prod.mk.inj hrest
    exact ⟨hf, hplace, hmounts, hrec⟩

/-- No guest and no number of attempts helps. -/
theorem doRemoveContainer_never (req : RemoveContainerRequest) {m : String}
    (hm : (s.recorded req.containerId).head? = some m)
    (hn : s.place m ∉ s.mounts) (gs : List RemoveGuest) :
    (doRemoveContainer req g (gs.foldl (fun s g => (doRemoveContainer req g s).2) s)).1 ≠
      .ok () := by
  induction gs generalizing s with
  | nil => exact (doRemoveContainer_stuck hm hn).1
  | cons g' gs ih =>
    obtain ⟨-, hplace, hmounts, hrec⟩ := doRemoveContainer_stuck (g := g') hm hn
    apply ih
    · rw [Agent.recorded, hrec]
      exact hm
    · rw [hplace, hmounts]
      exact hn

/-- The guest, where it refuses nothing but to unmount where nothing is mounted. -/
def RemoveGuest.undisturbed (g : RemoveGuest) : RemoveGuest :=
  { g with
    refused := fun _ => none
    releaseRefused := fun _ => none
    removeDir := fun _ => none }

theorem RemoveGuest.Obliges.releaseStorages_eq (hg : g.Obliges) (hg' : g'.Obliges) (n : Nat)
    (cmounts : List String) : releaseStorages g n cmounts = releaseStorages g' n cmounts := by
  induction cmounts generalizing n with
  | nil => rfl
  | cons m cmounts ih =>
    rw [releaseStorages, releaseStorages, hg.releaseRefused, hg'.releaseRefused, hg.removeDir,
      hg'.removeDir, ih]

/-- Two guests that oblige let one removal do the same once it is ready. -/
theorem RemoveGuest.Obliges.doRemoveContainer_eq (hg : g.Obliges) (hg' : g'.Obliges)
    (h : req.Ready g s) (h' : req.Ready g' s) :
    doRemoveContainer req g s = doRemoveContainer req g' s := by
  have hrefused : g.refused = g'.refused := funext fun n => (hg.refused n).trans (hg'.refused n).symm
  have hdetach (cid : String) : detachMounts g cid = detachMounts g' cid := by
    rw [detachMounts, detachMounts, hrefused]
  have hstorages : releaseStorages g 0 = releaseStorages g' 0 :=
    funext (hg.releaseStorages_eq hg' 0)
  have hrelease : releaseContainer g req.containerId = releaseContainer g' req.containerId := by
    rw [releaseContainer, releaseContainer, hdetach, hstorages]
  rw [h.eq, h'.eq, hrelease]

/-- Where the container can be destroyed once more, repeating a removal that failed ends as an
undisturbed one does exactly if the failed one had unmounted nothing, and the undisturbed one
succeeds. -/
theorem doRemoveContainer_retry_iff (h : req.Ready g s) (h' : req.Ready g' s) (hg : g'.Obliges)
    (hf : (doRemoveContainer req g s).1 ≠ .ok ()) :
    doRemoveContainer req g' (doRemoveContainer req g s).2 =
        (.ok (), (doRemoveContainer req g' s).2) ↔
      FirstRefused g s req.containerId ∧ s.Removable req.containerId := by
  have hretry := h.retry h' hf
  constructor
  · intro hr
    have hgone := doRemoveContainer_gone hretry (congrArg Prod.fst hr)
    have hok : (doRemoveContainer req g' s).1 = .ok () := by
      by_contra hf'
      rw [hr, (h'.records hf').1] at hgone
      exact hgone (Table.mem_update.2 h'.present)
    refine ⟨unmounted_eq_nil_iff.1 ?_, (doRemoveContainer_removable_iff h' hg).1 hok⟩
    apply List.eq_nil_iff_forall_not_mem.2
    intro p hp
    have hrec : (doRemoveContainer req g s).2.recordedPlaces req.containerId =
        s.recordedPlaces req.containerId := by
      rw [Agent.recordedPlaces, Agent.recordedPlaces, Agent.recorded, Agent.recorded,
        (h.records hf).2, doRemoveContainer_place]
    -- both removals that succeed take off the same, so the failed one took off nothing
    have hfailed : (doRemoveContainer req g s).2.potential p +
        (unmounted g.refused s.mounts (s.recordedPlaces req.containerId)).count p ≤ s.potential p :=
      (releaseContainer_potential h.apply.symm).1
    have hagain : (doRemoveContainer req g' s).2.potential p +
        ((doRemoveContainer req g s).2.recordedPlaces req.containerId).count p =
          (doRemoveContainer req g s).2.potential p :=
      (releaseContainer_potential (hretry.apply.symm.trans hr)).2 rfl
    have hplain : (doRemoveContainer req g' s).2.potential p +
        (s.recordedPlaces req.containerId).count p = s.potential p :=
      (releaseContainer_potential (h'.apply.symm.trans (Prod.ext hok rfl))).2 rfl
    have hpos := List.count_pos_iff.2 hp
    rw [hrec] at hagain
    omega
  · rintro ⟨hr, hs⟩
    have hok := (doRemoveContainer_removable_iff h' hg).2 hs
    have hsame : doRemoveContainer req g' (doRemoveContainer req g s).2 =
        doRemoveContainer req g' s := by
      rw [hretry.apply, h'.apply, doRemoveContainer_firstRefused h hf hr, Agent.stop_stop]
    rw [hsame]
    exact Prod.ext hok rfl

section
variable {g g' : HandlerGuest} {s : Server} {ctr : LinuxContainer}

/-- `destroy` gets through: the bundle is found, no registered process has been reaped before it
takes its signal, and no poststop hook fails or never ends. -/
def HandlerGuest.Destroys (g : HandlerGuest) (ctr : LinuxContainer) : Prop :=
  g.destroy.Obliges ctr ∧ ¬ g.DestroyWaits ctr

/-- The request gets as far as the container's recorded mounts. -/
structure RemoveContainerRequest.Arrives (req : RemoveContainerRequest) (g : HandlerGuest)
    (s : Server) : Prop where
  free : s.Free
  destroyed : ∃ ctr, s.container req.containerId = some ctr ∧ g.Destroys ctr
  inTime : req.timeout = 0 ∨ g.remove.inTime = true

def HandlerGuest.undisturbed (g : HandlerGuest) : HandlerGuest :=
  { g with remove := g.remove.undisturbed }

def LinuxContainer.stop (ctr : LinuxContainer) : LinuxContainer :=
  { ctr with status := some "stopped" }

theorem HandlerGuest.destroys_stop (hs : ctr.status.isSome) :
    g.Destroys ctr.stop ↔ g.Destroys ctr := by
  have hoci : (ctr.stop.ociState g.destroy.bundlePath).isOk ↔
      (ctr.ociState g.destroy.bundlePath).isOk := by
    rw [LinuxContainer.ociState_isOk, LinuxContainer.ociState_isOk, and_iff_right hs]
    exact and_iff_right rfl
  have hwaits : g.DestroyWaits ctr.stop ↔ g.DestroyWaits ctr := and_congr_left' hoci
  have hobliges : g.destroy.Obliges ctr.stop ↔ g.destroy.Obliges ctr := by
    rw [← DestroyGuest.completes_iff, ← DestroyGuest.completes_iff]
    exact and_congr_left' hoci
  exact and_congr hobliges (not_congr hwaits)

theorem Server.destroyOutcome_of (hc : s.container cid = some ctr) (hd : g.Destroys ctr) :
    s.destroyOutcome g cid = .ok () := by
  rw [Server.destroyOutcome, hc]
  exact Jail.destroy_eq_ok.2 (DestroyGuest.completes_iff.2 hd.1)

theorem RemoveContainerRequest.Arrives.present (h : req.Arrives g s) :
    req.containerId ∈ s.sandbox.containers := by
  obtain ⟨ctr, hc, -⟩ := h.destroyed
  rw [← Finmap.lookup_isSome]
  exact Server.container_isSome.symm.trans (hc ▸ rfl)

theorem RemoveContainerRequest.Arrives.ready (h : req.Arrives g s) :
    req.Ready (s.removeGuest g req.containerId) s.toAgent := by
  obtain ⟨ctr, hc, hd⟩ := h.destroyed
  exact ⟨h.free.1, h.present, Server.destroyOutcome_of hc hd, h.inTime⟩

theorem RemoveContainerRequest.Arrives.apply (h : req.Arrives g s) : doRemove req g s =
    (removeReply (doRemoveContainer req (s.removeGuest g req.containerId) s.toAgent).1,
      { s with toAgent :=
        (doRemoveContainer req (s.removeGuest g req.containerId) s.toAgent).2 }) := by
  apply doRemove_eq h.free.2
  rintro ⟨-, ctr, hc, hw⟩
  obtain ⟨ctr', hc', hd⟩ := h.destroyed
  cases hc.symm.trans hc'
  exact hd.2 hw

theorem removeReply_eq_ok {o : Outcome ErrorKind Unit} {r : Reply} :
    removeReply o = .ok r ↔ o = .ok () ∧ r = .empty := by
  cases o with
  | ok _ => exact ⟨fun h => ⟨rfl, (Outcome.ok.inj h).symm⟩, fun h => h.2 ▸ rfl⟩
  | err e => exact iff_of_false (fun h => by cases h) fun h => by cases h.1
  | panic => exact iff_of_false (fun h => by cases h) fun h => by cases h.1

/-- A removal that succeeds has destroyed the container. -/
theorem doRemove_arrives {r : Reply} (h : (doRemove req g s).1 = .ok r) : req.Arrives g s := by
  have hwaits : req.waits ≠ .ok r := by
    intro h
    rw [RemoveContainerRequest.waits] at h
    split at h
    · cases h
    · cases h
  cases hheld : s.held with
  | true =>
    rw [doRemove_held hheld] at h
    exact absurd h hwaits
  | false =>
    by_cases hw : s.poisoned = false ∧ ∃ ctr ∈ s.container req.containerId, g.DestroyWaits ctr
    · rw [doRemove_waits hheld hw] at h
      exact absurd h hwaits
    · rw [doRemove_eq hheld hw] at h
      have hok := (removeReply_eq_ok.1 h).1
      have hready : req.Ready (s.removeGuest g req.containerId) s.toAgent := by
        by_contra hn
        exact (doRemoveContainer_not_ready (f := fun _ => ()) (fun _ _ => rfl) (fun _ _ => rfl)
          hn).1 hok
      have hdone : s.destroyOutcome g req.containerId = .ok () := hready.destroyed
      refine ⟨⟨hready.free, hheld⟩, ?_, hready.inTime⟩
      unfold Server.destroyOutcome at hdone
      cases hc : s.container req.containerId with
      | none =>
        rw [hc] at hdone
        cases hdone
      | some ctr =>
        rw [hc] at hdone
        have hcompletes := Jail.destroy_eq_ok.1 hdone
        exact ⟨ctr, rfl, DestroyGuest.completes_iff.1 hcompletes,
          fun hwait => hw ⟨hready.free, ctr, hc, hwait⟩⟩

/-- A removal that fails leaves the container stopped, and everything for another attempt. -/
theorem RemoveContainerRequest.Arrives.failed (h : req.Arrives g s)
    (hf : (doRemove req g s).1 ≠ .ok .empty) :
    (doRemoveContainer req (s.removeGuest g req.containerId) s.toAgent).1 ≠ .ok () ∧
      (doRemove req g s).2.container req.containerId =
        (s.container req.containerId).map LinuxContainer.stop := by
  have hfail : (doRemoveContainer req (s.removeGuest g req.containerId) s.toAgent).1 ≠ .ok () := by
    intro hok
    rw [h.apply] at hf
    exact hf (removeReply_eq_ok.2 ⟨hok, rfl⟩)
  refine ⟨hfail, ?_⟩
  have hrecords := (h.ready.records hfail).1
  rw [h.apply]
  unfold Server.container
  rw [hrecords]
  change ((s.sandbox.containers.update _ _).lookup _).map _ = _
  rw [Table.lookup_update, if_pos rfl, Option.map_map, Option.map_map]
  rfl

/-- Repeating a removal that failed ends as an undisturbed one does exactly if the failed one had
unmounted nothing, the undisturbed one succeeds, and the container can be destroyed once more. -/
theorem doRemove_retry_iff (req : RemoveContainerRequest) (g g' : HandlerGuest) (s : Server)
    (h : req.Arrives g s) (hg : g'.remove.Obliges) (hf : (doRemove req g s).1 ≠ .ok .empty) :
    doRemove req g' (doRemove req g s).2 = (.ok .empty, (doRemove req g.undisturbed s).2) ↔
      FirstRefused g.remove s.toAgent req.containerId ∧ s.Removable req.containerId ∧
        (∃ ctr, s.container req.containerId = some ctr ∧ g'.Destroys ctr) ∧
        (req.timeout = 0 ∨ g'.remove.inTime = true) := by
  obtain ⟨ctr, hc, hd⟩ := h.destroyed
  obtain ⟨hfail, hstopped⟩ := h.failed hf
  have hstop : g'.Destroys ctr.stop ↔ g'.Destroys ctr := HandlerGuest.destroys_stop hd.1.status
  rw [hc, Option.map_some] at hstopped
  by_cases hagain : g'.Destroys ctr ∧ (req.timeout = 0 ∨ g'.remove.inTime = true)
  · obtain ⟨hd', hi'⟩ := hagain
    have harrives : req.Arrives g' s := ⟨h.free, ⟨ctr, hc, hd'⟩, hi'⟩
    have hundisturbed : req.Arrives g.undisturbed s := ⟨h.free, ⟨ctr, hc, hd⟩, h.inTime⟩
    have hretry : req.Arrives g' (doRemove req g s).2 := by
      refine ⟨?_, ⟨ctr.stop, hstopped, hstop.2 hd'⟩, hi'⟩
      rw [h.apply]
      exact ⟨(h.ready.retry harrives.ready hfail).free, h.free.2⟩
    have hguest : (doRemove req g s).2.removeGuest g' req.containerId =
        s.removeGuest g' req.containerId := by
      rw [Server.removeGuest, Server.removeGuest, Server.destroyOutcome_of hc hd',
        Server.destroyOutcome_of hstopped (hstop.2 hd')]
    have hobliges : (s.removeGuest g' req.containerId).Obliges :=
      ⟨hg.refused, hg.releaseRefused, hg.removeDir⟩
    have hcalm : (s.removeGuest g.undisturbed req.containerId).Obliges :=
      ⟨fun _ => rfl, fun _ => rfl, fun _ => rfl⟩
    have hplain := hobliges.doRemoveContainer_eq hcalm harrives.ready hundisturbed.ready
    have hiff := doRemoveContainer_retry_iff h.ready harrives.ready hobliges hfail
    rw [hretry.apply, hguest, hundisturbed.apply, ← hplain, h.apply]
    have hcond : (∃ c, s.container req.containerId = some c ∧ g'.Destroys c) ∧
        (req.timeout = 0 ∨ g'.remove.inTime = true) := ⟨⟨ctr, hc, hd'⟩, hi'⟩
    rw [and_iff_left hcond]
    refine Iff.trans ?_ hiff
    constructor
    · intro he
      obtain ⟨ho, ht⟩ := Prod.mk.inj he
      exact Prod.ext (removeReply_eq_ok.1 ho).1 (congrArg Server.toAgent ht)
    · intro he
      rw [he]
      rfl
  · apply iff_of_false
    · intro he
      have hretry := doRemove_arrives (congrArg Prod.fst he)
      obtain ⟨ctr', hc', hd'⟩ := hretry.destroyed
      cases hstopped.symm.trans hc'
      exact hagain ⟨hstop.1 hd', hretry.inTime⟩
    · rintro ⟨-, -, ⟨ctr', hc', hd'⟩, hi'⟩
      cases hc.symm.trans hc'
      exact hagain ⟨hd', hi'⟩

end

def RemoveGuest.refusing (g : RemoveGuest) (k : Nat) (e : Errno) : RemoveGuest :=
  { g with refused := fun n => if n = k then some e else g.refused n }

/-- The service with that container, whose init process is there. -/
def servedDisk : Server where
  toAgent := oneDisk
  inside _ := ⟨"1.0.1", [], 9, [(9, pipedProcess)], ∅⟩
  waiting := []
  held := false

/-- The first unmount is refused, and the processes are not reaped before the next attempt. -/
theorem doRemove_retry_busy : doRemove ⟨"disk", 0⟩ willingHandlers
    (doRemove ⟨"disk", 0⟩ { willingHandlers with
      remove := willingHandlers.remove.refusing 0 .EBUSY } servedDisk).2 =
        (.ok .empty, (doRemove ⟨"disk", 0⟩ willingHandlers servedDisk).2) := by
  have hc : servedDisk.container "disk" = some ⟨⟨"disk", false, { shellSpec with
      linux := some ⟨[], [], [], none, [⟨"pid", ""⟩], []⟩ }, some "created"⟩, "1.0.1", [], 9, [9]⟩ := by
    decide
  have hdestroys (g : HandlerGuest) (hg : g.destroy = willingDestroy)
      (hw : ∀ n, g.hookWaits n = false) : ∃ ctr, servedDisk.container "disk" = some ctr ∧
        g.Destroys ctr := by
    refine ⟨_, hc, ?_, ?_⟩
    · rw [hg]
      exact ⟨rfl, ⟨_, _, rfl, rfl⟩, fun _ _ => rfl, fun _ _ => ⟨rfl, rfl⟩⟩
    · rintro ⟨-, -, n, -, hn, -⟩
      rw [hw n] at hn
      cases hn
  exact (doRemove_retry_iff ⟨"disk", 0⟩ { willingHandlers with
      remove := willingHandlers.remove.refusing 0 .EBUSY } willingHandlers servedDisk
    ⟨⟨rfl, rfl⟩, hdestroys _ rfl fun _ => rfl, .inl rfl⟩ ⟨fun _ => rfl, fun _ => rfl, fun _ => rfl⟩
    (by decide)).2 ⟨by decide, by decide, hdestroys _ rfl fun _ => rfl, .inl rfl⟩

/-- The agent once a container with two disks runs. -/
def twoMounts : Agent :=
  (emptySandbox.create { createShell "disk" "blk" "/dev/vda" with
    storages := [⟨"blk", "/dev/vda", "tmpfs", [], "/a"⟩, ⟨"blk", "/dev/vdb", "tmpfs", [], "/b"⟩]
    bounded := by decide }
    obligingCreate).agent

/-- With the second of two unmounts refused, every repeated removal stops at the first. -/
theorem doRemoveContainer_stays :
    (¬ ∀ (req : RemoveContainerRequest) (g : RemoveGuest) (s : Agent) (k : Nat) (e : Errno),
      req.Ready g s → g.Obliges → (doRemoveContainer req g s).1 = .ok () →
      (doRemoveContainer req (g.refusing k e) s).1 ≠ .ok () →
      doRemoveContainer req g (doRemoveContainer req (g.refusing k e) s).2 =
        (.ok (), (doRemoveContainer req g s).2)) ∧
    ∀ (gs : List RemoveGuest) (g : RemoveGuest), (doRemoveContainer ⟨"disk", 0⟩ g
      (gs.foldl (fun s g => (doRemoveContainer ⟨"disk", 0⟩ g s).2)
        (doRemoveContainer ⟨"disk", 0⟩ (obligingRemove.refusing 1 .EBUSY) twoMounts).2)).1 ≠
          .ok () := by
  have hnever := fun (gs : List RemoveGuest) (g : RemoveGuest) =>
    doRemoveContainer_never ⟨"disk", 0⟩ (g := g) (m := "/a")
      (s := (doRemoveContainer ⟨"disk", 0⟩ (obligingRemove.refusing 1 .EBUSY) twoMounts).2)
      (by decide) (by decide) gs
  constructor
  · intro h
    have hr := h ⟨"disk", 0⟩ obligingRemove twoMounts 1 .EBUSY ⟨rfl, by decide, rfl, .inl rfl⟩
      obligingRemove_obliges (by decide) (by decide)
    exact hnever [] obligingRemove (congrArg Prod.fst hr)
  · exact hnever

end KataAgent
