import KataAgent.StorageReferences

namespace KataAgent
open Fallible Transition
set_option autoImplicit true

variable {s t : SandboxRun} {p : String} {g : RemoveGuest} {req : RemoveContainerRequest}

/-- The directories that a removal takes a mount off on its pass over the recorded mounts. -/
def SandboxRun.takenOff (s : SandboxRun) (req : RemoveContainerRequest) (g : RemoveGuest) :
    List String :=
  unmounted g.refused s.agent.mounts (s.agent.recordedPlaces req.containerId)

/-- No directory that a removal takes a mount off has an ephemeral storage of another container,
however the two spell it, and one that has an ephemeral storage of its own container loses it to a
removal in which nothing fails. -/
def Spares (s : SandboxRun) : SandboxRequest → Prop
  | .create _ _ => True
  | .remove req g => req.Ready g s.agent → ∀ p ∈ s.takenOff req g,
    (∀ cid storages, cid ≠ req.containerId → s.created.lookup cid = some storages →
      p ∉ s.agent.ephemeralPlaces storages) ∧
    (p ∈ s.agent.ephemeralPlaces ((s.created.lookup req.containerId).getD []) →
      s.takenOff req g = s.agent.recordedPlaces req.containerId ∧
      g.releases s.agent.place 0 s.agent.sandbox
        (s.agent.mounts.diff (s.agent.recordedPlaces req.containerId))
        (s.agent.released req.containerId))

/-- Whatever a removal detaches, its pass over the recorded mounts has taken off first. -/
theorem releaseContainer_detached (g : RemoveGuest) (cid : String) (a : Agent) :
    ∃ points, (releaseContainer g cid a).2.detached = a.detached ++ points ∧
      ∀ p ∈ points, p ∈ unmounted g.refused a.mounts (a.recordedPlaces cid) := by
  by_cases hu : unmounted g.refused a.mounts (a.recordedPlaces cid) = a.recordedPlaces cid
  · obtain ⟨points, hp, hd⟩ := releaseStorages_detached g 0 (a.released cid)
      (a.detach (a.recordedPlaces cid))
    apply Exists.intro (a.recordedPlaces cid ++ points)
    rw [releaseContainer_pass hu, hu]
    constructor
    · have hforget := Act.bind_modify_snd (x := releaseStorages g 0 (a.released cid))
        (s := a.detach (a.recordedPlaces cid)) (g := Agent.detached)
        (h := Agent.onSandbox (Sandbox.forget cid)) fun _ => rfl
      exact (hforget.trans hd).trans (List.append_assoc _ _ _)
    · intro p hm
      obtain hm | hm := List.mem_append.1 hm
      · exact hm
      · obtain ⟨m, hrel, rfl⟩ := List.mem_map.1 (hp p hm)
        have hrec : m ∈ a.recorded cid := List.mem_of_mem_filter hrel
        exact List.mem_map_of_mem hrec
  · obtain ⟨e, he⟩ := releaseContainer_err hu
    rw [he]
    exact ⟨_, rfl, fun _ hm => hm⟩

/-- What a removal detaches, and when. -/
theorem doRemoveContainer_detached (req : RemoveContainerRequest) (g : RemoveGuest) (a : Agent) :
    ∃ points, (doRemoveContainer req g a).2.detached = a.detached ++ points ∧
      ∀ p ∈ points, req.Ready g a ∧
        p ∈ unmounted g.refused a.mounts (a.recordedPlaces req.containerId) := by
  by_cases hr : req.Ready g a
  · obtain ⟨points, hd, hp⟩ := releaseContainer_detached g req.containerId (a.stop req.containerId)
    refine ⟨points, ?_, fun p hm => ⟨hr, hp p hm⟩⟩
    rw [hr.eq, locked_snd (f := Agent.detached) (fun _ _ => rfl) _ hr.free_stop]
    exact hd
  · obtain ⟨-, hd⟩ := doRemoveContainer_not_ready (f := Agent.detached) (fun _ _ => rfl)
      (fun _ _ => rfl) hr
    exact ⟨[], hd.trans (List.append_nil _).symm, nofun⟩

/-- A removal in which nothing fails succeeds. -/
theorem RemoveContainerRequest.Ready.ok {a : Agent} (hr : req.Ready g a)
    (hu : unmounted g.refused a.mounts (a.recordedPlaces req.containerId) =
      a.recordedPlaces req.containerId)
    (hrel : g.releases a.place 0 a.sandbox (a.mounts.diff (a.recordedPlaces req.containerId))
      (a.released req.containerId)) :
    (doRemoveContainer req g a).1 = .ok () := by
  have hstop : (a.stop req.containerId).sandbox.storages = a.sandbox.storages := rfl
  obtain ⟨u, hu, -⟩ := releaseContainer_ok (s := a.stop req.containerId) hu
    ((RemoveGuest.releases_congr hstop).2 hrel)
  rw [hr.eq, locked_fst _ hr.free_stop, hu]

/-- A removal that spares the others' storages loses none. -/
theorem SandboxRun.remove_lost (h : Spares s (.remove req g)) :
    (s.remove req g).lost = s.lost := by
  obtain ⟨points, hd, hp⟩ := doRemoveContainer_detached req g s.agent
  have hnone : ∀ p ∈ points, ¬ 0 < Table.count (s.remove req g).created
      fun storages => p ∈ s.agent.ephemeralPlaces storages := by
    intro p hm hpos
    obtain ⟨cid, storages, hl, he⟩ := Table.count_pos_iff.1 hpos
    obtain ⟨hready, hu⟩ := hp p hm
    obtain ⟨hother, hown⟩ := h hready p hu
    by_cases hok : (doRemoveContainer req g s.agent).1 = .ok ()
    · rw [(SandboxRun.remove_ok (Prod.ext hok rfl)).2] at hl
      obtain ⟨hne, hl⟩ := Table.of_lookup_erase hl
      exact hother cid storages hne hl he
    · rw [(SandboxRun.remove_fails hok).2] at hl
      by_cases hne : cid = req.containerId
      · subst hne
        obtain ⟨hall, hrel⟩ := hown (by rw [hl]; exact he)
        exact hok (hready.ok hall hrel)
      · exact hother cid storages hne hl he
  have hlost : (s.remove req g).lost = s.lost ++ points.filter fun p =>
      0 < Table.count (s.remove req g).created fun storages =>
        p ∈ s.agent.ephemeralPlaces storages := by
    rw [SandboxRun.remove]
    simp only [hd, List.drop_left]
  rw [hlost, List.filter_eq_nil_iff.2 fun p hm => by simpa using hnone p hm, List.append_nil]

/-- A disk that was mounted under another spelling of the directory takes the storage off. -/
example : ((sandboxRequests.run { emptySandbox with
      agent := { emptySandbox.agent with place := fun p => if p = "/p/" then "/p" else p } }
    [.create { createShell "disk" "blk" "/dev/vda" with
        storages := [⟨"blk", "/dev/vda", "tmpfs", [], "/p/"⟩], bounded := by decide }
        obligingCreate,
      .create (createShell "pod" "ephemeral" "tmpfs") obligingCreate,
      .remove ⟨"disk", 0⟩ obligingRemove]).map SandboxRun.lost) = some ["/p"] := by
  decide

/-- Two containers share an ephemeral storage. -/
def shareEphemeral : List SandboxRequest :=
  [.create (createShell "first" "ephemeral" "tmpfs") obligingCreate,
    .create (createShell "second" "ephemeral" "tmpfs") obligingCreate]

theorem shareEphemeral_spares : sandboxRequests.Admits Spares emptySandbox
    (shareEphemeral ++ [.remove ⟨"second", 0⟩ obligingRemove]) := by
  refine ⟨trivial, ?_⟩
  rintro t ⟨⟩
  refine ⟨trivial, ?_⟩
  rintro t ⟨⟩
  refine ⟨fun _ p hp => absurd hp (by decide +revert), ?_⟩
  rintro t ⟨⟩
  trivial

end KataAgent
