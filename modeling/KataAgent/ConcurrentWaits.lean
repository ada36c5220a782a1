import KataAgent.LostExits

namespace KataAgent
open Transition
set_option autoImplicit true

variable {s t : Runtime} {e : ProcessRecord}

/-- Nobody takes a record away while a `WaitProcess` call is to look it up again. -/
def Runtime.WaitsSpared (s : Runtime) : RuntimeAction → Prop
  | .waitFinish i => ∀ w ∈ s.waits.lookup i, ∀ j ∈ s.waits.keys, ∀ w' ∈ s.waits.lookup j,
      j ≠ i → w'.phase.pending → ¬ (w'.containerId = w.containerId ∧ w'.pid = w.pid)
  -- a new container of the same id, after a `CreateSandbox`
  | .start _ => ∀ st ∈ s.starting, st.rest = [] → st.request.init = true → ∀ j ∈ s.waits.keys,
      ∀ w ∈ s.waits.lookup j, w.phase.pending → w.containerId ≠ st.request.containerId
  | .removeContainer containerId _ => ∀ j ∈ s.waits.keys, ∀ w ∈ s.waits.lookup j,
      w.phase.pending → w.containerId ≠ containerId
  | .removeDestroyed call => ∀ containerId ∈ s.removals.lookup call, ∀ j ∈ s.waits.keys,
      ∀ w ∈ s.waits.lookup j, w.phase.pending → w.containerId ≠ containerId
  | _ => True

instance : Decidable (Runtime.WaitsSpared s a) :=
  match a with
  | .waitFinish _ =>
    inferInstanceAs (Decidable (∀ _ ∈ _, ∀ _ ∈ _, ∀ _ ∈ _, _ ≠ _ → WaitPhase.pending _ → ¬ _))
  | .start _ =>
    inferInstanceAs (Decidable (∀ _ ∈ _, _ = [] → _ = true → ∀ _ ∈ _, ∀ _ ∈ _, _ → _ ≠ _))
  | .removeContainer .. => inferInstanceAs (Decidable (∀ _ ∈ _, ∀ _ ∈ _, _ → _ ≠ _))
  | .removeDestroyed _ => inferInstanceAs (Decidable (∀ _ ∈ _, ∀ _ ∈ _, ∀ _ ∈ _, _ → _ ≠ _))
  | .spawn .. | .exec .. | .exit .. | .reap .. | .record .. | .begin .. | .abandon .. | .hang
  | .waitLookup .. | .waitRead .. | .readPick .. | .readReturn .. | .closeStdin ..
  | .destroyContainer .. | .hangDestroy .. | .createSandbox .. | .openOther .. | .closeOther .. =>
    isTrue trivial

/-- Every call that is not over will find its record. -/
structure Runtime.WaitsHeld (s : Runtime) : Prop where
  sane : s.poisoned = false
  calm : ∀ {i w}, s.waits.lookup i = some w → w.phase ≠ .panicked
  present : ∀ {i w}, s.waits.lookup i = some w → w.phase.pending →
    ∃ e, s.entry w.containerId w.pid = some e ∧ e.owner = w.found

theorem Runtime.WaitsHeld.frame (hs : s.WaitsHeld) (hp : t.poisoned = s.poisoned)
    (hw : t.waits = s.waits)
    (he : ∀ i w e, s.waits.lookup i = some w → w.phase.pending →
      s.entry w.containerId w.pid = some e → e.owner = w.found →
        ∃ e', t.entry w.containerId w.pid = some e' ∧ e'.owner = e.owner) : t.WaitsHeld where
  sane := hp.trans hs.sane
  calm h := hs.calm (hw ▸ h)
  present := by
    intro i w h hph
    rw [hw] at h
    obtain ⟨e, hen, ho⟩ := hs.present h hph
    obtain ⟨e', hen', ho'⟩ := he i w e h hph hen ho
    exact ⟨e', hen', ho'.trans ho⟩

/-- A record that is changed keeps its owner. -/
theorem Runtime.entry_setEntry_owner (he : s.entry containerId pid = some e)
    (ho : a.owner = e.owner) (h : s.entry c p = some e') :
    ∃ x, (s.setEntry containerId pid a).entry c p = some x ∧ x.owner = e'.owner := by
  by_cases hx : c = containerId ∧ p = pid
  · obtain ⟨rfl, rfl⟩ := hx
    cases he.symm.trans h
    exact ⟨a, Runtime.entry_setEntry_self he, ho⟩
  · exact ⟨e', Runtime.entry_setEntry_ne h hx, rfl⟩

/-- A new process takes the record of no process that is waited for. -/
theorem Runtime.WaitsHeld.register (hs : s.WaitsHeld) (hS : s.Sound) (hd : s.DistinctPids)
    (hc : s.WaitsSpared (.start m)) (hst : s.starting = some st) (hr : st.rest = [])
    (hp : st.child = some n) : (s.register st n).WaitsHeld := by
  apply hs.frame Runtime.register_poisoned Runtime.register_waits
  intro i w e hw hph hen ho
  refine ⟨e, ?_, rfl⟩
  apply Runtime.entry_register_ne hen
  · exact fun hi => hc st hst hr hi i (Table.mem_keys_iff.2 ⟨w, hw⟩) w hw hph
  · rintro ⟨-, hpid⟩
    -- the agent refers to the new process and to the one that is waited for
    have hchild : s.Referred st.id := .starting hst (by rw [hp]; exact Option.some_ne_none n) rfl
    have hk := hd.eq (hpid ▸ hS.started.wait hw) (hS.started.forked hst hp).1
      (.awaited hw hph rfl) hchild
    exact hS.started.awaited hst hw hk

theorem Runtime.WaitsHeld.calm_setWait (hs : s.WaitsHeld) (hw : t.waits = s.waits)
    (hp : phase ≠ .panicked) (h : (t.setWait i phase).waits.lookup j = some w) :
    w.phase ≠ .panicked := by
  rcases Runtime.lookup_setWait h with ⟨-, hy⟩ | ⟨-, x, -, rfl⟩
  · exact hs.calm (hw ▸ hy)
  · exact hp

theorem Runtime.WaitsHeld.step (hs : s.WaitsHeld) (hS : s.Sound) (hd : s.DistinctPids)
    (hc : s.WaitsSpared a) (hu : ¬ s.Unwinds a) (h : s.step a = some t) : t.WaitsHeld := by
  have hsame : ∀ i w e, s.waits.lookup i = some w → w.phase.pending →
      s.entry w.containerId w.pid = some e → e.owner = w.found →
        ∃ e', s.entry w.containerId w.pid = some e' ∧ e'.owner = e.owner :=
    fun _ _ e _ _ h _ => ⟨e, h, rfl⟩
  cases Runtime.step_effect h with
  | writeExit hr hst he hw =>
    exact hs.frame rfl rfl fun _ _ _ _ _ h _ => Runtime.entry_setEntry_owner he rfl h
  | closeStdin hx =>
    exact hs.frame rfl rfl fun _ _ _ _ _ h _ =>
      Runtime.entry_setEntry_owner (Runtime.found_eq_some.1 hx).2.1 rfl h
  | register hst hr hp => exact hs.register hS hd hc hst hr hp
  | abandon hst =>
    refine hs.frame ?_ rfl hsame
    rw [Bool.eq_false_iff.2 hu, Bool.or_false]
  | waitLookup hx hi =>
    obtain ⟨-, he, -⟩ := Runtime.found_eq_some.1 hx
    exact {
      sane := hs.sane
      calm := by
        intro j w hj
        rcases Table.of_lookup_insert hj with ⟨-, rfl⟩ | ⟨-, hj⟩
        · rw [if_neg (hS.held.entry he).exitR]
          exact nofun
        · exact hs.calm hj
      present := by
        intro j w hj hph
        rcases Table.of_lookup_insert hj with ⟨-, rfl⟩ | ⟨-, hj⟩
        · exact ⟨_, he, rfl⟩
        · exact hs.present hj hph }
  | waitRead hw hp hr hb => exact {
      sane := hs.sane
      calm := hs.calm_setWait rfl nofun
      present := by
        intro j x hj hph
        rcases Runtime.lookup_setWait hj with ⟨-, hy⟩ | ⟨rfl, x', hy, rfl⟩
        · exact hs.present hy hph
        · have hpr := hs.present hw (by rw [hp]; trivial)
          cases hw.symm.trans hy
          exact hpr }
  | waitPanic hw hp hst hn =>
    obtain ⟨e, he, -⟩ := hs.present hw (by rw [hp]; trivial)
    rcases hn with hn | hn
    · cases hs.sane.symm.trans hn
    · cases he.symm.trans hn
  | @waitReturn i w e hw hp hst hn he => exact {
      sane := hs.sane
      calm := hs.calm_setWait rfl nofun
      present := by
        intro j x hj hph
        rcases Runtime.lookup_setWait hj with ⟨hne, hy⟩ | ⟨-, x', -, rfl⟩
        · obtain ⟨a, ha, ho⟩ := hs.present hy hph
          have hk := hc w hw j (Table.mem_keys_iff.2 ⟨x, hy⟩) x hy hne hph
          exact ⟨a, Runtime.entry_removeEntry_ne ha hk, ho⟩
        · cases hph }
  | unwind hl hx => exact absurd hx hu
  | removeContainer hl =>
    refine hs.frame rfl rfl fun i w e hw hph hen ho => ⟨e, Runtime.entry_erase_ne hen ?_, rfl⟩
    exact hc i (Table.mem_keys_iff.2 ⟨w, hw⟩) w hw hph
  | removeDestroyed hl hr =>
    refine hs.frame rfl rfl fun i w e hw hph hen ho => ⟨e, Runtime.entry_erase_ne hen ?_, rfl⟩
    exact hc _ hr i (Table.mem_keys_iff.2 ⟨w, hw⟩) w hw hph
  | _ => exact hs.frame rfl rfl hsame

/-- What the clients of concurrent `WaitProcess` calls may expect. -/
structure Runtime.WaitsEnd (s : Runtime) : Prop where
  /-- No call has met a record, or a container, that was taken away. -/
  calm : ∀ i w, s.waits.lookup i = some w → w.phase ≠ .panicked
  returned : ∀ i w code, s.waits.lookup i = some w → w.phase = .returned code →
    ∃ status, s.Ended w.found status ∧ code = status.code
  once : ∀ x, s.closed.count x ≤ 1
  /-- When the reaper is through with the process, the call's read ends as soon as no child of the
  agent has a copy of its `exit_pipe_w`. -/
  unblocked : ∀ i w status, s.waits.lookup i = some w → w.phase = .reading →
    s.Finished w.found status → ((∃ t, s.step (.waitRead i) = some t) ↔ ¬ s.Inherited w.found)
  /-- After its read the call gets the status as soon as it gets the mutex. -/
  answered : ∀ i w, s.waits.lookup i = some w → w.phase = .finishing → s.lockable →
    ∃ t w' status, s.step (.waitFinish i) = some t ∧ t.waits.lookup i = some w' ∧
      w'.phase = .returned status.code ∧ s.Ended w.found status

/-- Once the reaper has closed its end of an exit pipe, copies alone block the reader. -/
theorem Runtime.Sound.blocks_iff (hS : s.Sound) (he : s.entry c p = some e)
    (hE : s.Ended e.owner status) (hr : e.exitPipeR = some fd) :
    s.blocks fd ↔ s.Inherited e.owner := by
  have hx := hS.held.entry he
  have hrf : s.files.lookup fd = some (.start e.owner .exitPipeR) :=
    hx.fd_file hr (hx.fd_open hr (by decide))
  have hpipe : ∀ k, k ∈ (s.files.lookup fd).bind File.exitPipe ↔ k = e.owner := by
    intro k
    rw [hrf]
    exact Option.some_inj.trans eq_comm
  constructor
  · rintro ⟨k, hk, h⟩
    cases (hpipe k).1 hk
    apply h.resolve_left
    intro hw
    obtain ⟨w, hw⟩ := Runtime.mem_exitWriters.1 hw
    exact hS.held.tag_open hw (hS.tracked.recorded he hE).2
  · exact fun h => ⟨e.owner, (hpipe _).2 rfl, .inr h⟩

theorem Runtime.waitRead_isSome (hw : s.waits.lookup i = some w) (hp : w.phase = .reading)
    (hr : w.exitPipeR = some fd) : (∃ t, s.waitRead i = some t) ↔ ¬ s.blocks fd := by
  obtain ⟨c, eid, p, r, k, ph⟩ := w
  cases hp
  cases hr
  simp only [Runtime.waitRead, hw]
  split
  · rename_i hb
    refine iff_of_false ?_ (not_not.2 hb)
    intro h
    obtain ⟨t, ht⟩ := h
    cases ht
  · rename_i hb
    exact iff_of_true ⟨_, rfl⟩ hb

theorem Runtime.waitFinish_eq (hw : s.waits.lookup i = some w) (hp : w.phase = .finishing)
    (hl : s.lockable) (he : s.entry w.containerId w.pid = some e) :
    s.waitFinish i = some (((s.closeAll e.owner (e.fds waitSlots)).removeEntry w.containerId
      w.pid).setWait i (.returned e.exitCode)) := by
  obtain ⟨c, eid, p, r, k, ph⟩ := w
  cases hp
  simp [Runtime.waitFinish, hw, hl.1, hl.2.1, hl.2.2, he]

theorem Runtime.lookup_setWait_self (hw : s.waits.lookup i = some w) (phase : WaitPhase) :
    (s.setWait i phase).waits.lookup i = some { w with phase := phase } := by
  rw [Runtime.setWait, Table.lookup_update, if_pos rfl, hw]
  rfl

/-- What the reaper is through with it has told the agent. -/
theorem Runtime.Heard.ended (hh : s.Heard) (hs : s.Sifted) (hS : s.Started)
    (he : s.entry c p = some e) (hF : s.Finished e.owner status) : s.Ended e.owner status := by
  obtain ⟨ch, hch, hne⟩ := hS.entry_startedFor he
  obtain ⟨d, hd, hph⟩ := hF
  cases hch.symm.trans hd
  refine ⟨ch, hch, hph.resolve_right fun hl => ?_⟩
  have hsift := hs _ ch hch
  rw [hl] at hsift
  exact Bool.eq_false_iff.1 hsift (hh _ ch hch hne status (by rw [hl]; rfl))

theorem Runtime.WaitsHeld.ends (hs : s.WaitsHeld) (hS : s.Sound) (hsift : s.Sifted)
    (hh : s.Heard) : s.WaitsEnd where
  calm _ _ h := hs.calm h
  returned _ _ _ h hp := hS.tracked.returned h hp
  once := List.nodup_iff_count_le_one.1 hS.held.closed_nodup
  unblocked := by
    intro i w status hw hp hF
    obtain ⟨e, he, ho⟩ := hs.present hw (by rw [hp]; trivial)
    obtain ⟨fd, hfd⟩ := Option.ne_none_iff_exists'.1 (hS.held.entry he).exitR
    have hr : w.exitPipeR = some fd := (hS.tracked.reading hw hp he ho).symm.trans hfd
    have hE := hh.ended hsift hS.started he (ho ▸ hF)
    rw [← ho, ← hS.blocks_iff he hE hfd]
    exact Runtime.waitRead_isSome hw hp hr
  answered := by
    intro i w hw hp hl
    obtain ⟨e, he, ho⟩ := hs.present hw (by rw [hp]; trivial)
    obtain ⟨status, hE⟩ := hS.tracked.shut (hS.tracked.passed hw hp he ho)
    have hx := (hS.tracked.recorded he (ho ▸ hE)).1
    have hw' := Runtime.lookup_setWait_self
      (s := (s.closeAll e.owner (e.fds waitSlots)).removeEntry w.containerId w.pid) hw
      (.returned e.exitCode)
    exact ⟨_, _, status, Runtime.waitFinish_eq hw hp hl he, hw', congrArg WaitPhase.returned hx, hE⟩

/-- Two containers, of which the process of the first one has ended, and a call for each. -/
def secondCopies : List RuntimeAction :=
  firstCreate ++ createRun "c2" [5, 6, 7, 8, 9, 10, 0, 11, 12, 13, 14, 15, 11, 0, 0, 0, 0, 0, 0, 0,
    0, 5, 8, 0] ++
    [.waitLookup 0 "c1" "init" 10, .waitLookup 1 "c2" "init" 11, .exit 0 (.exited 7), .reap 0,
      .record "c1"]

-- the second container's process has a copy of the first one's pipe until it executes its program
example : (processRuntime.run (.boot ∅) secondCopies).map (fun s => decide (s.Inherited 0)) =
    some true := by decide +kernel

/-- The second container's process executes its program. -/
def twoWaits : List RuntimeAction := secondCopies ++ [.exec 1, .waitRead 0, .waitFinish 0]

/-- Both calls for one process come past their reads; the first to finish removes the record. -/
def sameWaits : List RuntimeAction :=
  firstCreate ++ [.waitLookup 0 "c1" "init" 10, .waitLookup 1 "c1" "init" 10,
    .exit 0 (.exited 7), .reap 0, .record "c1", .waitRead 0, .waitRead 1, .waitFinish 0,
    .waitFinish 1]

end KataAgent
