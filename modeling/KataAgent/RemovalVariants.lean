import KataAgent.HandlerReplies

namespace KataAgent
open Fallible
set_option autoImplicit true

variable {g : HandlerGuest} {s : Server} {a : Agent} {rg : RemoveGuest} {ctr : LinuxContainer}

/-- The bundle of the container is found, every process takes its signal, and no poststop hook
fails. -/
structure DestroyGuest.Obliges (g : DestroyGuest) (ctr : LinuxContainer) : Prop where
  status : ctr.status.isSome
  bundle : ∃ root dir, ctr.spec.root = some root ∧ g.bundlePath root.path = .ok (some dir)
  killed : ∀ pid ∈ ctr.processes, g.kill pid = none
  hooks : ∀ n < (ctr.hooks .poststop).length,
    (g.poststop n).refused = none ∧ (g.poststop n).failed = none

theorem LinuxContainer.ociState_isOk {bundlePath : String → Outcome ErrorKind (Option String)} :
    (ctr.ociState bundlePath).isOk ↔ ctr.status.isSome ∧
      ∃ root dir, ctr.spec.root = some root ∧ bundlePath root.path = .ok (some dir) := by
  rw [LinuxContainer.ociState]
  cases ctr.status with
  | none => exact iff_of_false Bool.false_ne_true fun h => Bool.false_ne_true h.1
  | some status =>
    cases hr : ctr.spec.root with
    | none =>
      apply iff_of_false Bool.false_ne_true
      rintro ⟨_, _, _, h, -⟩
      cases h
    | some root =>
      dsimp only
      rcases hb : bundlePath root.path with dir | e | _
      · cases dir with
        | none =>
          apply iff_of_false Bool.false_ne_true
          rintro ⟨_, _, _, h, h'⟩
          cases h
          cases hb.symm.trans h'
        | some dir => exact iff_of_true rfl ⟨rfl, root, dir, rfl, hb⟩
      · apply iff_of_false Bool.false_ne_true
        rintro ⟨_, _, _, h, h'⟩
        cases h
        cases hb.symm.trans h'
      · apply iff_of_false Bool.false_ne_true
        rintro ⟨_, _, _, h, h'⟩
        cases h
        cases hb.symm.trans h'

theorem DestroyGuest.completes_iff {d : DestroyGuest} : d.Completes ctr ↔ d.Obliges ctr := by
  rw [DestroyGuest.Completes, LinuxContainer.ociState_isOk]
  constructor
  · rintro ⟨⟨hstatus, hbundle⟩, hkill, hhooks⟩
    exact ⟨hstatus, hbundle, hkill, hhooks⟩
  · intro h
    exact ⟨⟨h.status, h.bundle⟩, h.killed, h.hooks⟩

/-- What runs under the mutex either unwinds or leaves it free. -/
theorem locked_replies {x : Act Agent ErrorKind α}
    (hx : Act.Preserves (fun a : Agent => a.poisoned = false) x)
    (h : (locked x a).1 ≠ .panic) : (locked x a).2.poisoned = false := by
  cases ha : a.poisoned with
  | true =>
    rw [locked_poisoned x ha] at h
    exact absurd rfl h
  | false =>
    rw [locked_fst x ha] at h
    exact ((locked_answers hx ha).2 h).2

theorem doRemoveContainer_inline (cid : String) (rg : RemoveGuest) :
    doRemoveContainer ⟨cid, 0⟩ rg = locked (do
      destroyContainer rg cid
      releaseContainer rg cid) := by
  rw [doRemoveContainer, if_pos rfl]

/-- With no timeout, an answer comes with a usable mutex. -/
theorem doRemoveContainer_inline_free {cid : String}
    (h : (doRemoveContainer ⟨cid, 0⟩ rg a).1 ≠ .panic) :
    (doRemoveContainer ⟨cid, 0⟩ rg a).2.poisoned = false := by
  rw [doRemoveContainer_inline] at h ⊢
  exact locked_replies
    (.bind destroyContainer_keepsFree fun _ => releaseContainer_keepsFree) h

theorem destroyInTime_ne_panic {cid : String} : (destroyInTime rg cid a).1 ≠ .panic := by
  rw [destroyInTime]
  rcases locked (destroyContainer rg cid).unwrap a with ⟨o, b⟩
  cases o with
  | ok _ =>
    dsimp only
    split
    · intro h
      cases h
    · intro h
      cases h
  | err e =>
    intro h
    cases h
  | panic =>
    intro h
    cases h

/-- With a timeout, the request thread answers whatever becomes of the other one. -/
theorem doRemoveContainer_timed_ne_panic {req : RemoveContainerRequest} (ht : req.timeout ≠ 0)
    (hi : rg.inTime = true) : (doRemoveContainer req rg a).1 ≠ .panic := by
  by_cases h : req.Ready rg a
  · rw [h.eq, locked_fst _ h.free_stop]
    exact releaseContainer_safe rg req.containerId _
  · have hd := (destroyInTime_fails (f := fun _ => ()) (fun _ _ => rfl) (fun _ _ => rfl)
      fun hp hc hdo => absurd (RemoveContainerRequest.Ready.mk hp hc hdo (.inr hi)) h).1
    rw [doRemoveContainer, if_neg ht]
    rcases hr : destroyInTime rg req.containerId a with ⟨o, b⟩
    have hp : (destroyInTime rg req.containerId a).1 ≠ .panic := destroyInTime_ne_panic
    rw [hr] at hd hp
    cases o with
    | ok u => exact absurd rfl (hd u)
    | err e =>
      rw [Act.bind_err hr]
      intro h
      cases h
    | panic => exact absurd rfl hp

theorem serve_remove_returns {req : RemoveContainerRequest} :
    (serve g (.removeContainer req) s).1.Returns ↔ (doRemove req g s).1.Returns :=
  failsWith_returns

theorem serve_remove_snd {req : RemoveContainerRequest} :
    (serve g (.removeContainer req) s).2 = (doRemove req g s).2 := failsWith_snd _ _ s

/-- With a timeout there is a reply, whatever becomes of the thread. -/
theorem doRemove_timed_returns {req : RemoveContainerRequest} (ht : req.timeout ≠ 0)
    (hi : g.remove.inTime = true) : (doRemove req g s).1.Returns := by
  have hwaits : req.waits.Returns := by
    rw [RemoveContainerRequest.waits, if_neg ht]
    exact Outcome.returns_error _
  cases hheld : s.held with
  | true =>
    rw [doRemove_held hheld]
    exact hwaits
  | false =>
    by_cases hw : s.poisoned = false ∧ ∃ ctr ∈ s.container req.containerId, g.DestroyWaits ctr
    · rw [doRemove_waits hheld hw]
      exact hwaits
    · rw [doRemove_eq hheld hw]
      exact removeReply_returns.2 (doRemoveContainer_timed_ne_panic ht hi)

/-- Without a timeout, a reply comes with a free mutex. -/
theorem doRemove_inline_free {cid : String} (h : (doRemove ⟨cid, 0⟩ g s).1.Returns) :
    (doRemove ⟨cid, 0⟩ g s).2.Free := by
  have hwaits : ¬ (RemoveContainerRequest.waits ⟨cid, 0⟩).Returns := by
    rw [RemoveContainerRequest.waits, if_pos rfl]
    exact Outcome.not_returns_never
  cases hheld : s.held with
  | true =>
    rw [doRemove_held hheld] at h
    exact absurd h hwaits
  | false =>
    by_cases hw : s.poisoned = false ∧ ∃ ctr ∈ s.container cid, g.DestroyWaits ctr
    · rw [doRemove_waits hheld hw] at h
      exact absurd h hwaits
    · rw [doRemove_eq hheld hw] at h ⊢
      exact ⟨doRemoveContainer_inline_free (removeReply_returns.1 h), hheld⟩

/-- A removal that is ready does the same under one lock as under two. -/
theorem serve_remove_ready {timeout : UInt32} {cid : String} (hs : s.Free)
    (hi : g.remove.inTime = true) (hc : s.container cid = some ctr)
    (hd : g.destroy.Completes ctr) (hw : ¬ g.DestroyWaits ctr) :
    serve g (.removeContainer ⟨cid, timeout⟩) s = serve g (.removeContainer ⟨cid, 0⟩) s := by
  have hpresent : cid ∈ s.sandbox.containers := by
    rw [← Finmap.lookup_isSome]
    exact Server.container_isSome.symm.trans (hc ▸ rfl)
  have hdestroy : s.destroyOutcome g cid = .ok () := by
    rw [Server.destroyOutcome, hc]
    exact Jail.destroy_eq_ok.2 hd
  have hready (timeout : UInt32) : RemoveContainerRequest.Ready ⟨cid, timeout⟩
      (s.removeGuest g cid) s.toAgent :=
    ⟨hs.1, hpresent, hdestroy, .inr hi⟩
  have hheld : s.held = false := hs.2
  have hnone : ¬ (s.poisoned = false ∧ ∃ ctr ∈ s.container cid, g.DestroyWaits ctr) := by
    rintro ⟨-, c, hc', hwaits⟩
    cases hc.symm.trans hc'
    exact hw hwaits
  have hsame : doRemove ⟨cid, timeout⟩ g s = doRemove ⟨cid, 0⟩ g s := by
    rw [doRemove_eq hheld hnone, doRemove_eq hheld hnone, (hready timeout).eq, (hready 0).eq]
  rw [serve, serve, failsWith, failsWith, hsame]

/-- With and without a timeout, a removal gives one reply and one state exactly if the mutex is
usable, the container exists, nothing that `destroy` asks for is refused, and its hooks end. -/
theorem serve_removeContainer_agree_iff (cid : String) {timeout : UInt32} (ht : timeout ≠ 0)
    (g : HandlerGuest) (hi : g.remove.inTime = true) (s : Server) :
    serve g (.removeContainer ⟨cid, timeout⟩) s = serve g (.removeContainer ⟨cid, 0⟩) s ↔
      s.Free ∧ ∃ ctr, s.container cid = some ctr ∧ g.destroy.Obliges ctr ∧
        ¬ g.DestroyWaits ctr := by
  constructor
  · intro h
    have htimed : (serve g (.removeContainer ⟨cid, timeout⟩) s).1.Returns :=
      serve_remove_returns.2 (doRemove_timed_returns ht hi)
    have hfree : (serve g (.removeContainer ⟨cid, timeout⟩) s).2.Free := by
      have hreply := htimed
      rw [h] at hreply ⊢
      rw [serve_remove_snd]
      exact doRemove_inline_free (serve_remove_returns.1 hreply)
    obtain ⟨hs, ⟨ctr, hc, hw, hready⟩, -⟩ := Server.serves_iff.1 ⟨htimed, hfree⟩
    rw [if_neg ht] at hready
    exact ⟨hs, ctr, hc, DestroyGuest.completes_iff.1 hready.1, hw⟩
  · rintro ⟨hs, ctr, hc, hd, hw⟩
    exact serve_remove_ready hs hi hc (DestroyGuest.completes_iff.2 hd) hw

/-- A running container with its init process. -/
def servedPod : Server where
  toAgent := emptyServer.toAgent.onSandbox fun sb => { sb with
    containers := sb.containers.insert "pod" ⟨"pod", false, hookedSpec, some "running"⟩ }
  inside _ := ⟨"1.0.1", [], 9, [(9, pipedProcess)], ∅⟩
  waiting := []
  held := false

theorem serve_removeContainer_pod :
    serve willingHandlers (.removeContainer ⟨"pod", 5⟩) servedPod =
      serve willingHandlers (.removeContainer ⟨"pod", 0⟩) servedPod :=
  (serve_removeContainer_agree_iff "pod" (by decide) willingHandlers rfl servedPod).2
    ⟨⟨rfl, rfl⟩, _, rfl, ⟨rfl, ⟨_, _, rfl, rfl⟩, fun _ _ => rfl, fun _ _ => ⟨rfl, rfl⟩⟩, by decide⟩

/-- The init process has exited and is reaped, so that the signal finds no process. -/
def reapedHandlers : HandlerGuest :=
  { willingHandlers with destroy := { willingDestroy with kill := fun _ => some ESRCH } }

/-- The replies are the same; the mutex survives only the removal without a timeout. -/
theorem serve_removeContainer_differ :
    (¬ ∀ (cid : String) (timeout : UInt32) (g : HandlerGuest) (s : Server), timeout ≠ 0 →
      g.remove.inTime = true → serve g (.removeContainer ⟨cid, timeout⟩) s =
        serve g (.removeContainer ⟨cid, 0⟩) s) ∧
    (serve reapedHandlers (.removeContainer ⟨"pod", 5⟩) servedPod).1 =
      (serve reapedHandlers (.removeContainer ⟨"pod", 0⟩) servedPod).1 := by
  have htimed : (serve reapedHandlers (.removeContainer ⟨"pod", 5⟩) servedPod).2.poisoned =
      true := by
    decide
  have hinline : (serve reapedHandlers (.removeContainer ⟨"pod", 0⟩) servedPod).2.poisoned =
      false := by
    decide
  constructor
  · intro h
    have hs := h "pod" 5 reapedHandlers servedPod (by decide) rfl
    rw [hs, hinline] at htimed
    cases htimed
  · decide

end KataAgent
