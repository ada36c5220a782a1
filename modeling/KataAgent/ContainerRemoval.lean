import KataAgent.ContainerRequests

namespace KataAgent
open Fallible
set_option autoImplicit true

variable {g : RemoveGuest} {req : RemoveContainerRequest} {cid p : String} {s t : Agent}
  {refused : Nat → Option Errno} {mounts cmounts : List String}

/-- The mounts that the last successful storage pass of a create left under a container's id. -/
def Agent.recorded (s : Agent) (cid : String) : List String :=
  (s.sandbox.containerMounts.lookup cid).getD []

/-- The directories of the recorded mounts. -/
def Agent.recordedPlaces (s : Agent) (cid : String) : List String :=
  (s.recorded cid).map s.place

/-- The recorded mounts that have a reference counter. -/
def Agent.released (s : Agent) (cid : String) : List String :=
  (s.recorded cid).filter (· ∈ s.sandbox.storages)

/-- The directories that a pass over `mounts` takes a mount off before it fails. -/
def unmounted (refused : Nat → Option Errno) : List String → List String → List String
  | _, [] => []
  | layers, m :: mounts =>
    if refused 0 = none ∧ m ∈ layers then
      m :: unmounted (fun n => refused (n + 1)) (layers.erase m) mounts
    else []

def Agent.detach (points : List String) (s : Agent) : Agent :=
  { s with mounts := s.mounts.diff points, detached := s.detached ++ points }

/-- Every `umount` and every `remove_dir_all` of the release loop succeeds. -/
def RemoveGuest.releases (g : RemoveGuest) (place : String → String) :
    Nat → Sandbox → List String → List String → Prop
  | _, _, _, [] => True
  | n, sb, layers, m :: cmounts =>
    if m ∈ sb.storages then
      (g.releaseRefused n = none ∧ place m ∈ layers ∧ g.removeDir n = none) ∧
        g.releases place (n + 1) (sb.unsetSandboxStorage m).2 (layers.erase (place m)) cmounts
    else g.releases place (n + 1) sb layers cmounts

instance decidableReleases (g : RemoveGuest) (place : String → String) (n : Nat) (sb : Sandbox)
    (layers : List String) :
    (cmounts : List String) → Decidable (g.releases place n sb layers cmounts)
  | [] => inferInstanceAs (Decidable True)
  | m :: cmounts =>
    if h : m ∈ sb.storages then
      have := decidableReleases g place (n + 1) (sb.unsetSandboxStorage m).2
        (layers.erase (place m)) cmounts
      decidable_of_iff (_ ∧ _) (iff_of_eq (if_pos h).symm)
    else
      have := decidableReleases g place (n + 1) sb layers cmounts
      decidable_of_iff _ (iff_of_eq (if_neg h).symm)

def Sandbox.uncountAll (points : List String) (sb : Sandbox) : Sandbox :=
  points.foldl (fun sb p => (sb.unsetSandboxStorage p).2) sb

theorem umount_apply : umount fault p s =
    if fault = none ∧ s.place p ∈ s.mounts then (.ok (), s.detach [s.place p])
    else (.err (.nix (fault.getD .EINVAL)), s) := by
  unfold umount
  cases fault with
  | some e => rfl
  | none =>
    by_cases hm : s.place p ∈ s.mounts
    · simp [hm, Agent.detach]
    · simp [hm]

theorem unmounted_subset : unmounted refused layers mounts ⊆ mounts := by
  induction mounts generalizing refused layers with
  | nil => exact List.Subset.refl _
  | cons m mounts ih =>
    rw [unmounted]
    split
    · exact List.cons_subset_cons _ ih
    · exact List.nil_subset _

/-- The pass takes off what it can, and fails unless that is everything. -/
theorem removeMounts_apply (refused : Nat → Option Errno) (mounts : List String) (s : Agent) :
    ∃ o, removeMounts refused mounts s =
        (o, s.detach (unmounted refused s.mounts (mounts.map s.place))) ∧
      o ≠ .panic ∧
      (o = .ok () ↔ unmounted refused s.mounts (mounts.map s.place) = mounts.map s.place) := by
  induction mounts generalizing refused s with
  | nil =>
    exact ⟨.ok (), by simp [removeMounts, unmounted, Agent.detach], nofun, by simp [unmounted]⟩
  | cons m mounts ih =>
    unfold removeMounts
    rw [List.map_cons, unmounted]
    have hu : umount (refused 0) m s = _ := umount_apply
    split at hu
    · rename_i h
      rw [Act.bind_ok hu, if_pos h]
      obtain ⟨o, ho, hp, hok⟩ := ih (fun n => refused (n + 1)) (s.detach [s.place m])
      have hm : (s.detach [s.place m]).mounts = s.mounts.erase (s.place m) := by
        simp [Agent.detach]
      have hsame : (s.detach [s.place m]).place = s.place := rfl
      rw [hm, hsame] at ho hok
      refine ⟨o, ho.trans ?_, hp, by rw [hok]; simp⟩
      simp [Agent.detach]
    · rename_i h
      rw [Act.bind_err hu, if_neg h]
      exact ⟨.err (.nix ((refused 0).getD .EINVAL)), by simp [Agent.detach], nofun, by simp⟩

theorem uncountStorage_apply (s : Agent) (p : String) : uncountStorage p s =
    (.ok (decide (p ∈ s.sandbox.storages)),
      s.setSandbox (s.sandbox.unsetSandboxStorage p).2) := by
  unfold uncountStorage Sandbox.unsetSandboxStorage
  cases hl : s.sandbox.storages.lookup p with
  | none => simp [Finmap.lookup_eq_none.1 hl]
  | some count =>
    have hm : p ∈ s.sandbox.storages := Finmap.mem_iff.2 ⟨count, hl⟩
    dsimp only
    split <;> simp [hm]

theorem removeSandboxStorage_apply (fault : Option Errno) (dir : Option ErrorKind) (p : String)
    (s : Agent) : ∃ o u, removeSandboxStorage fault dir p s = (o, u) ∧ o ≠ .panic ∧
      u.sandbox = s.sandbox ∧ u.fifos = s.fifos ∧
      u.place = s.place ∧
      (∃ points, (∀ q ∈ points, q = s.place p) ∧ u.detached = s.detached ++ points) ∧
      (fault = none ∧ s.place p ∈ s.mounts ∧ dir = none →
        o = .ok () ∧ u.mounts = s.mounts.erase (s.place p)) := by
  rw [removeSandboxStorage]
  obtain ⟨o, hr, hp, ho⟩ := removeMounts_apply (fun _ => fault) [p] s
  rw [List.map_singleton] at hr ho
  have hsub : ∀ q ∈ unmounted (fun _ => fault) s.mounts [s.place p], q = s.place p :=
    fun q hq => List.mem_singleton.1 (unmounted_subset hq)
  cases o with
  | panic => exact absurd rfl hp
  | err e =>
    rw [Act.bind_err hr]
    refine ⟨.err e, _, rfl, nofun, rfl, rfl, rfl, ⟨_, hsub, rfl⟩, ?_⟩
    rintro ⟨rfl, hm, -⟩
    have hu : unmounted (fun _ => none) s.mounts [s.place p] = [s.place p] := by
      simp [unmounted, hm]
    cases ho.2 hu
  | ok _ =>
    rw [Act.bind_ok hr]
    have hu := ho.1 rfl
    cases dir with
    | some e =>
      refine ⟨.err e, _, rfl, nofun, rfl, rfl, rfl, ⟨_, hsub, rfl⟩, ?_⟩
      rintro ⟨-, -, h⟩
      cases h
    | none =>
      rw [hu]
      refine ⟨.ok (), _, rfl, nofun, rfl, rfl, rfl, ⟨[s.place p, s.place p], by simp, ?_⟩,
        fun _ => ⟨rfl, ?_⟩⟩
      · simp [Agent.detach]
      · simp [Agent.detach]

theorem Sandbox.unsetSandboxStorage_of_notMem {sb : Sandbox} (h : p ∉ sb.storages) :
    (sb.unsetSandboxStorage p).2 = sb := by
  rw [Sandbox.unsetSandboxStorage]
  rw [Table.notMem_iff.1 h]

theorem unsetAndRemoveSandboxStorage_apply (fault : Option Errno) (dir : Option ErrorKind)
    (p : String) (s : Agent) : ∃ o u, unsetAndRemoveSandboxStorage fault dir p s = (o, u) ∧
      o ≠ .panic ∧ u.sandbox = (s.sandbox.unsetSandboxStorage p).2 ∧ u.fifos = s.fifos ∧
      u.place = s.place ∧
      (∃ points, (∀ q ∈ points, q = s.place p) ∧ u.detached = s.detached ++ points) ∧
      (p ∉ s.sandbox.storages → o = .ok () ∧ u.mounts = s.mounts) ∧
      (fault = none ∧ s.place p ∈ s.mounts ∧ dir = none → p ∈ s.sandbox.storages →
        o = .ok () ∧ u.mounts = s.mounts.erase (s.place p)) := by
  rw [unsetAndRemoveSandboxStorage]
  rw [Act.bind_ok (uncountStorage_apply s p)]
  by_cases hm : p ∈ s.sandbox.storages
  · rw [decide_eq_true hm, if_pos rfl]
    obtain ⟨o, u, hr, ho, hs, hf, hl, hd, hok⟩ := removeSandboxStorage_apply fault dir p
      (s.setSandbox (s.sandbox.unsetSandboxStorage p).2)
    exact ⟨o, u, hr, ho, hs, hf, hl, hd, fun h => absurd hm h, fun h _ => hok h⟩
  · rw [decide_eq_false hm, if_neg nofun]
    exact ⟨.ok (), _, rfl, nofun, rfl, rfl, rfl, ⟨[], nofun, (List.append_nil _).symm⟩,
      fun _ => ⟨rfl, rfl⟩, fun _ h => absurd h hm⟩

/-- The loop over the released storages deletes nothing but them. -/
theorem releaseStorages_detached (g : RemoveGuest) (n : Nat) (cmounts : List String) (s : Agent) :
    ∃ points, (∀ q ∈ points, q ∈ cmounts.map s.place) ∧
      (releaseStorages g n cmounts s).2.detached = s.detached ++ points := by
  induction cmounts generalizing n s with
  | nil => exact ⟨[], nofun, (List.append_nil _).symm⟩
  | cons m cmounts ih =>
    obtain ⟨o, u, hu, hp, -, -, hl, ⟨points, hq, hd⟩, -⟩ :=
      unsetAndRemoveSandboxStorage_apply (g.releaseRefused n) (g.removeDir n) m s
    rw [releaseStorages, List.map_cons]
    cases o with
    | panic => exact absurd rfl hp
    | err e =>
      rw [Act.bind_err hu]
      exact ⟨points, fun q h => List.mem_cons.2 (.inl (hq q h)), hd⟩
    | ok _ =>
      rw [Act.bind_ok hu]
      obtain ⟨rest, hr, ht⟩ := ih (n + 1) u
      rw [hl] at hr
      refine ⟨points ++ rest, fun q h => ?_, by rw [ht, hd, List.append_assoc]⟩
      obtain h | h := List.mem_append.1 h
      · exact List.mem_cons.2 (.inl (hq q h))
      · exact List.mem_cons.2 (.inr (hr q h))

/-- When nothing fails, the loop lowers the counter of every released storage. -/
theorem releaseStorages_ok (h : g.releases s.place n s.sandbox s.mounts cmounts) :
    ∃ t, releaseStorages g n cmounts s = (.ok (), t) ∧
      t.sandbox = s.sandbox.uncountAll cmounts ∧ t.fifos = s.fifos := by
  induction cmounts generalizing n s with
  | nil => exact ⟨s, rfl, rfl, rfl⟩
  | cons m cmounts ih =>
    obtain ⟨o, u, hu, -, hs, hf, hl, -, hskip, hok⟩ :=
      unsetAndRemoveSandboxStorage_apply (g.releaseRefused n) (g.removeDir n) m s
    rw [releaseStorages]
    rw [RemoveGuest.releases] at h
    by_cases hm : m ∈ s.sandbox.storages
    · rw [if_pos hm] at h
      obtain ⟨ho, hmounts⟩ := hok h.1 hm
      subst ho
      rw [← hs, ← hmounts, ← hl] at h
      obtain ⟨t, ht, hts, htf⟩ := ih h.2
      rw [Act.bind_ok hu]
      exact ⟨t, ht, hts.trans (by rw [hs]; rfl), htf.trans hf⟩
    · rw [if_neg hm] at h
      obtain ⟨ho, hmounts⟩ := hskip hm
      subst ho
      rw [Sandbox.unsetSandboxStorage_of_notMem hm] at hs
      rw [← hs, ← hmounts, ← hl] at h
      obtain ⟨t, ht, hts, htf⟩ := ih h
      rw [Act.bind_ok hu]
      refine ⟨t, ht, hts.trans ?_, htf.trans hf⟩
      unfold Sandbox.uncountAll
      rw [List.foldl_cons, Sandbox.unsetSandboxStorage_of_notMem hm, hs]

theorem RemoveGuest.releases_congr {sb sb' : Sandbox} (h : sb.storages = sb'.storages) :
    g.releases place n sb layers cmounts ↔ g.releases place n sb' layers cmounts := by
  induction cmounts generalizing n sb sb' layers with
  | nil => exact Iff.rfl
  | cons m cmounts ih =>
    have hu : (sb.unsetSandboxStorage m).2.storages = (sb'.unsetSandboxStorage m).2.storages := by
      unfold Sandbox.unsetSandboxStorage
      rw [h]
      cases sb'.storages.lookup m with
      | none => exact h
      | some count =>
        dsimp only
        split <;> rfl
    unfold RemoveGuest.releases
    rw [h, ih hu, ih h]

/-- The pass over the recorded mounts, and what it hands to the release loop. -/
theorem detachMounts_apply (g : RemoveGuest) (cid : String) (s : Agent) :
    ∃ o, detachMounts g cid s =
      (o, s.detach (unmounted g.refused s.mounts (s.recordedPlaces cid))) ∧ o ≠ .panic ∧
      ∀ cmounts, o = .ok cmounts ↔
        unmounted g.refused s.mounts (s.recordedPlaces cid) = s.recordedPlaces cid ∧
          cmounts = s.released cid := by
  unfold detachMounts Agent.released Agent.recordedPlaces Agent.recorded
  rw [Act.bind_ok (Act.read_apply _)]
  cases hl : s.sandbox.containerMounts.lookup cid with
  | none => exact ⟨.ok [], by simp [unmounted, Agent.detach], nofun, by simp [unmounted, eq_comm]⟩
  | some mounts =>
    obtain ⟨o, hr, hp, ho⟩ := removeMounts_apply g.refused mounts s
    cases o with
    | panic => exact absurd rfl hp
    | err e =>
      refine ⟨.err e, Act.bind_err hr, nofun, fun cmounts => ⟨nofun, fun h => ?_⟩⟩
      cases ho.2 h.1
    | ok _ =>
      refine ⟨.ok _, Act.bind_ok hr, nofun, fun cmounts => ?_⟩
      simp [ho.1 rfl, eq_comm, Agent.detach]

/-- A removal whose pass over the recorded mounts fails has only unmounted. -/
theorem releaseContainer_err
    (h : unmounted g.refused s.mounts (s.recordedPlaces cid) ≠ s.recordedPlaces cid) :
    ∃ e, releaseContainer g cid s =
      (.err e, s.detach (unmounted g.refused s.mounts (s.recordedPlaces cid))) := by
  obtain ⟨o, hd, hp, ho⟩ := detachMounts_apply g cid s
  cases o with
  | panic => exact absurd rfl hp
  | ok cmounts => exact absurd ((ho cmounts).1 rfl).1 h
  | err e => exact ⟨e, Act.bind_err hd⟩

theorem releaseContainer_pass
    (h : unmounted g.refused s.mounts (s.recordedPlaces cid) = s.recordedPlaces cid) :
    releaseContainer g cid s = (do
      releaseStorages g 0 (s.released cid)
      Act.modify (Agent.onSandbox (Sandbox.forget cid))) (s.detach (s.recordedPlaces cid)) := by
  obtain ⟨o, hd, hp, ho⟩ := detachMounts_apply g cid s
  have hok := (ho (s.released cid)).2 ⟨h, rfl⟩
  rw [hok, h] at hd
  exact Act.bind_ok hd

/-- A removal in which nothing fails lowers the counters of the released storages. -/
theorem releaseContainer_ok
    (h : unmounted g.refused s.mounts (s.recordedPlaces cid) = s.recordedPlaces cid)
    (hr : g.releases s.place 0 s.sandbox (s.mounts.diff (s.recordedPlaces cid))
      (s.released cid)) :
    ∃ t, releaseContainer g cid s = (.ok (), t) ∧
      t.sandbox = (s.sandbox.uncountAll (s.released cid)).forget cid ∧ t.fifos = s.fifos := by
  obtain ⟨t, ht, hs, hf⟩ := releaseStorages_ok (s := s.detach (s.recordedPlaces cid)) hr
  rw [releaseContainer_pass h, Act.bind_ok ht]
  exact ⟨_, rfl, congrArg (Sandbox.forget cid) hs, hf⟩

theorem releaseStorages_safe (g : RemoveGuest) (n : Nat) (cmounts : List String) :
    Act.Safe (releaseStorages g n cmounts) := by
  induction cmounts generalizing n with
  | nil => exact .pure _
  | cons m cmounts ih =>
    refine .bind (fun a => ?_) fun _ => ih (n + 1)
    obtain ⟨o, u, hr, hp, -⟩ :=
      unsetAndRemoveSandboxStorage_apply (g.releaseRefused n) (g.removeDir n) m a
    rw [hr]
    exact hp

theorem releaseContainer_safe (g : RemoveGuest) (cid : String) :
    Act.Safe (releaseContainer g cid) := by
  refine .bind (fun a => ?_) fun _ => .bind (releaseStorages_safe g 0 _) fun _ => .modify _
  obtain ⟨o, hd, hp, -⟩ := detachMounts_apply g cid a
  rw [hd]
  exact hp

/-- What is not about the sandbox and the mounts survives a removal. -/
theorem releaseContainer_preserves {I : Agent → Prop}
    (hm : ∀ s mounts detached, I s → I { s with mounts := mounts, detached := detached })
    (hs : ∀ s sb, I s → I (s.setSandbox sb)) (g : RemoveGuest) (cid : String) :
    Act.Preserves I (releaseContainer g cid) := by
  have hmounts (refused : Nat → Option Errno) (mounts : List String) :
      Act.Preserves I (removeMounts refused mounts) := by
    intro a ha
    obtain ⟨o, hr, -⟩ := removeMounts_apply refused mounts a
    rw [hr]
    exact hm a _ _ ha
  have hstorages (n : Nat) (cmounts : List String) :
      Act.Preserves I (releaseStorages g n cmounts) := by
    induction cmounts generalizing n with
    | nil => exact .pure _
    | cons m cmounts ih =>
      refine .bind (.bind (fun a ha => ?_) fun known => ?_) fun _ => ih (n + 1)
      · rw [uncountStorage_apply]
        exact hs a _ ha
      · split
        · refine .bind (hmounts _ _) fun _ => .bind (.lift _) fun _ => ?_
          exact .modify fun a => hm a a.mounts _
        · exact .pure _
  refine .bind (fun a ha => ?_) fun cmounts => .bind (hstorages 0 cmounts) fun _ => ?_
  · obtain ⟨o, hd, -⟩ := detachMounts_apply g cid a
    rw [hd]
    exact hm a _ _ ha
  · exact .modify fun a => hs a _

/-- The request gets as far as the container's recorded mounts. -/
structure RemoveContainerRequest.Ready (req : RemoveContainerRequest) (g : RemoveGuest)
    (s : Agent) : Prop where
  free : s.poisoned = false
  present : req.containerId ∈ s.sandbox.containers
  destroyed : g.destroy = .ok ()
  inTime : req.timeout = 0 ∨ g.inTime = true

def Agent.stop (cid : String) (s : Agent) : Agent := s.onSandbox (.setStatus cid "stopped")

theorem destroyContainer_ok (hc : cid ∈ s.sandbox.containers) (hd : g.destroy = .ok ()) :
    destroyContainer g cid s = (.ok (), s.stop cid) := by
  obtain ⟨ctr, hl⟩ := Finmap.mem_iff.1 hc
  rw [destroyContainer]
  rw [Act.bind_ok (Act.read_apply _), hl, hd]
  rfl

theorem destroyContainer_fails {c : String}
    (h : ¬ (c ∈ s.sandbox.containers ∧ g.destroy = .ok ())) :
    ∃ o, destroyContainer g c s = (o, s) ∧ o ≠ .ok () := by
  rw [destroyContainer]
  rw [Act.bind_ok (Act.read_apply _)]
  cases hl : s.sandbox.containers.lookup c with
  | none => exact ⟨.panic, rfl, nofun⟩
  | some ctr =>
    cases hd : g.destroy with
    | err e => exact ⟨.err e, rfl, nofun⟩
    | panic => exact ⟨.panic, rfl, nofun⟩
    | ok _ => exact absurd ⟨Finmap.mem_iff.2 ⟨ctr, hl⟩, hd⟩ h

theorem destroyContainer_unwrap_ok (hc : cid ∈ s.sandbox.containers) (hd : g.destroy = .ok ()) :
    (destroyContainer g cid).unwrap s = (.ok (), s.stop cid) := by
  rw [Act.unwrap]
  rw [destroyContainer_ok hc hd]

theorem destroyContainer_unwrap_fails
    (h : ¬ (cid ∈ s.sandbox.containers ∧ g.destroy = .ok ())) :
    (destroyContainer g cid).unwrap s = (.panic, s) := by
  obtain ⟨o, hr, ho⟩ := destroyContainer_fails h
  rw [Act.unwrap]
  rw [hr]
  cases o with
  | ok _ => exact absurd rfl ho
  | err e => rfl
  | panic => rfl

theorem RemoveContainerRequest.Ready.free_stop (h : req.Ready g s) :
    (s.stop req.containerId).poisoned = false := h.free

theorem RemoveContainerRequest.Ready.eq (h : req.Ready g s) : doRemoveContainer req g s =
    locked (releaseContainer g req.containerId) (s.stop req.containerId) := by
  have hd := destroyContainer_ok h.present h.destroyed
  rw [doRemoveContainer]
  split
  · exact locked_congr h.free h.free_stop (Act.bind_ok hd)
  · rename_i ht
    have hdt : destroyInTime g req.containerId s = (.ok (), s.stop req.containerId) := by
      rw [destroyInTime]
      rw [locked_apply h.free (destroyContainer_unwrap_ok h.present h.destroyed) nofun]
      exact if_pos (h.inTime.resolve_left ht)
    exact Act.bind_ok hdt

/-- The destroying thread, when its report does not arrive. -/
theorem destroyInTime_fails {τ : Type} {c : String} {f : Agent → τ}
    (hf : ∀ s b, f { s with poisoned := b } = f s) (hstop : ∀ s cid, f (s.stop cid) = f s)
    (h : s.poisoned = false → c ∈ s.sandbox.containers → g.destroy = .ok () →
      g.inTime = false) :
    (∀ a, (destroyInTime g c s).1 ≠ .ok a) ∧ f (destroyInTime g c s).2 = f s := by
  unfold destroyInTime
  cases hp : s.poisoned with
  | true =>
    rw [locked_poisoned _ hp]
    exact ⟨nofun, rfl⟩
  | false =>
    by_cases hd : c ∈ s.sandbox.containers ∧ g.destroy = .ok ()
    · rw [locked_apply hp (destroyContainer_unwrap_ok hd.1 hd.2) nofun]
      simp only [h hp hd.1 hd.2]
      exact ⟨nofun, (hf _ _).trans (hstop _ _)⟩
    · unfold locked
      rw [if_neg (by simp [hp]), destroyContainer_unwrap_fails hd]
      exact ⟨nofun, hf _ _⟩

/-- A request that does not get that far fails without touching mounts or counters. -/
theorem doRemoveContainer_not_ready {τ : Type} {f : Agent → τ}
    (hf : ∀ s b, f { s with poisoned := b } = f s) (hstop : ∀ s cid, f (s.stop cid) = f s)
    (h : ¬ req.Ready g s) :
    (doRemoveContainer req g s).1 ≠ .ok () ∧ f (doRemoveContainer req g s).2 = f s := by
  rw [doRemoveContainer]
  split
  · rename_i ht
    cases hp : s.poisoned with
    | true =>
      rw [locked_poisoned _ hp]
      exact ⟨nofun, rfl⟩
    | false =>
      rw [locked_fst _ hp, locked_snd hf _ hp]
      obtain ⟨o, hr, ho⟩ := destroyContainer_fails (g := g) (s := s) (c := req.containerId)
        fun hd => h ⟨hp, hd.1, hd.2, .inl ht⟩
      have hn := Act.bind_not_ok (x := destroyContainer g req.containerId)
        (f := fun _ => releaseContainer g req.containerId) (s := s) (by
          rw [hr]
          exact fun _ h => ho h)
      rw [hr] at hn
      exact ⟨hn.1 (), congrArg f hn.2⟩
  · rename_i ht
    obtain ⟨hn, hs⟩ := destroyInTime_fails (g := g) (s := s) (c := req.containerId) hf hstop
      fun hp hc hd => by
        by_contra hi
        exact h ⟨hp, hc, hd, .inr (by simpa using hi)⟩
    have hb := Act.bind_not_ok (f := fun _ => locked (releaseContainer g req.containerId)) hn
    exact ⟨hb.1 (), (congrArg f hb.2).trans hs⟩

end KataAgent
