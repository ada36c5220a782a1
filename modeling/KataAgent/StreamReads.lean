import KataAgent.ExitReaping

namespace KataAgent
open Transition
set_option autoImplicit true

variable {s t : Runtime} {e : ProcessRecord}

/-- The number that the kernel gives to a descriptor that the step opens. -/
def Runtime.newFd (s : Runtime) : RuntimeAction → Option RawFd
  | .openOther fd => some fd
  | .start n => s.starting.bind fun st =>
    match st.rest with
    | .openAt _ :: _ => some n
    | _ => none
  | _ => none

/-- The kernel gives the lowest free number. -/
def Runtime.LowestFree (s : Runtime) (a : RuntimeAction) : Prop :=
  ∀ fd ∈ s.newFd a, ∀ fd' < fd, fd' ∈ s.files

instance : Decidable (Runtime.LowestFree s a) := inferInstanceAs (Decidable (∀ _ ∈ _, _))

/-- No descriptor gets the number that a read has picked and not yet used. -/
def Runtime.PicksKept (s : Runtime) (a : RuntimeAction) : Prop :=
  ∀ fd ∈ s.newFd a, ∀ i ∈ s.reads.keys, ∀ r ∈ s.reads.lookup i, r.phase = .reading → r.fd ≠ fd

instance : Decidable (Runtime.PicksKept s a) := inferInstanceAs (Decidable (∀ _ ∈ _, _))

/-- The variable whose descriptor the call is to read. -/
def Slot.streamOf (stdout : Bool) (slot : Slot) : Prop :=
  slot = .termMaster ∨ slot = if stdout then .parentStdout else .parentStderr

/-- The file is an output of the process of the call. -/
def ReadCall.Own (r : ReadCall) (file : File) : Prop :=
  ∃ slot : Slot, slot.streamOf r.stdout ∧ file = .start r.found slot

/-- The bytes that a read returned come from the process that was registered under the ids. -/
def Runtime.ReadsOwn (s : Runtime) : Prop :=
  ∀ i r file, s.reads.lookup i = some r → r.phase = .returned file →
    r.Own file ∧ ∃ pid, s.Named r.found pid (some (r.containerId, r.execId))

/-- What a read that is under way will find, if anything, is the output that it picked. -/
structure Runtime.ReadsHeld (s : Runtime) : Prop where
  picked : ∀ {i r file}, s.reads.lookup i = some r → r.phase = .reading →
    s.files.lookup r.fd = some file → r.Own file
  returned : ∀ {i r file}, s.reads.lookup i = some r → r.phase = .returned file → r.Own file

theorem ProcessRecord.fd_of_streamFd {fd : RawFd} (h : e.streamFd stdout = some fd) :
    ∃ slot : Slot, slot.streamOf stdout ∧ slot ≠ .exitPipeW ∧ e.fd slot = some fd := by
  rw [ProcessRecord.streamFd] at h
  split at h
  · rename_i ht
    cases h
    exact ⟨.termMaster, .inl rfl, by decide, ht⟩
  · cases stdout with
    | true => exact ⟨.parentStdout, .inr rfl, by decide, h⟩
    | false => exact ⟨.parentStderr, .inr rfl, by decide, h⟩

/-- Only an opening puts a file where there was none. -/
theorem Runtime.files_after (h : s.step a = some t) (hf : t.files.lookup fd = some file) :
    s.files.lookup fd = some file ∨ fd ∈ s.newFd a := by
  have hcl : ∀ {fds}, (s.closeAll 0 fds).files.lookup fd = some file →
      s.files.lookup fd = some file := fun h => (Runtime.lookup_closeAll_some h).2
  cases Runtime.step_effect h with
  | openAt hst hr hn =>
    rcases Table.of_lookup_insert hf with ⟨hx, -⟩ | ⟨-, hf⟩
    · right
      rw [hx]
      simp [Runtime.newFd, hst, hr]
    · exact .inl hf
  | openOther hn =>
    rcases Table.of_lookup_insert hf with ⟨rfl, -⟩ | ⟨-, hf⟩
    · exact .inr rfl
    · exact .inl hf
  | closeOther hx =>
    exact .inl (Table.of_lookup_erase hf).2
  | closeAt hst hr hfd => exact .inl (hcl hf)
  | writeExit hr hst he hw => exact .inl (hcl hf)
  | waitReturn hw hp hst hn he => exact .inl (hcl hf)
  | closeStdin hx => exact .inl (hcl hf)
  | register hst hr hc =>
    rw [Runtime.register_files] at hf
    exact .inl hf
  | _ => exact .inl hf

theorem Runtime.reads_after (h : s.step a = some t) (hr : t.reads.lookup i = some r) :
    s.reads.lookup i = some r ∨
    (∃ pid e, s.entry r.containerId pid = some e ∧ e.streamFd r.stdout = some r.fd ∧
      r.found = e.owner ∧ r.phase = .reading ∧ t.files = s.files) ∨
    ∃ r', s.reads.lookup i = some r' ∧ r'.phase = .reading ∧ (r = { r' with phase := .failed } ∨
      ∃ file, s.files.lookup r'.fd = some file ∧ r = { r' with phase := .returned file }) := by
  cases Runtime.step_effect h with
  | readPick hf hfd hi =>
    rcases Table.of_lookup_insert hr with ⟨-, rfl⟩ | ⟨-, hr⟩
    · exact .inr (.inl ⟨_, _, (Runtime.found_eq_some.1 hf).2.1, hfd, rfl, rfl, rfl⟩)
    · exact .inl hr
  | readReturn hx hp hf =>
    rcases Runtime.lookup_setRead hr with ⟨-, hr⟩ | ⟨rfl, r', hr', rfl⟩
    · exact .inl hr
    · cases hx.symm.trans hr'
      exact .inr (.inr ⟨_, hx, hp, .inr ⟨_, hf, rfl⟩⟩)
  | readFail hx hp =>
    rcases Runtime.lookup_setRead hr with ⟨-, hr⟩ | ⟨rfl, r', hr', rfl⟩
    · exact .inl hr
    · cases hx.symm.trans hr'
      exact .inr (.inr ⟨_, hx, hp, .inl rfl⟩)
  | register hst hrest hc =>
    rw [Runtime.register_reads] at hr
    exact .inl hr
  | _ => exact .inl hr

theorem Runtime.ReadsHeld.step (hs : s.ReadsHeld) (hh : s.Held) (hc : s.PicksKept a)
    (h : s.step a = some t) : t.ReadsHeld where
  picked := by
    intro i r file hr hp hf
    rcases Runtime.reads_after h hr with hr | ⟨pid, e, he, hfd, ho, -, hfs⟩ | ⟨r', -, -, hx⟩
    · rcases Runtime.files_after h hf with hf | hnew
      · exact hs.picked hr hp hf
      · exact absurd rfl (hc _ hnew i (Table.mem_keys_iff.2 ⟨r, hr⟩) r hr hp)
    · obtain ⟨slot, hsl, hne, hfd⟩ := ProcessRecord.fd_of_streamFd hfd
      have hx := hh.entry he
      rw [hfs, hx.fd_file hfd (hx.fd_open hfd hne)] at hf
      cases hf
      exact ⟨slot, hsl, by rw [ho]⟩
    · rcases hx with rfl | ⟨file', -, rfl⟩
      · cases hp
      · cases hp
  returned := by
    intro i r file hr hp
    rcases Runtime.reads_after h hr with hr | ⟨pid, e, -, -, -, hx, -⟩ | ⟨r', hr', hp', hx⟩
    · exact hs.returned hr hp
    · cases hp.symm.trans hx
    · rcases hx with rfl | ⟨file', hf, rfl⟩
      · cases hp
      · cases hp
        have hown : r'.Own file := hs.picked hr' hp' hf
        exact hown

/-- A read returns another process's output only if its number was reused before it read, or if
the reaper closed an `exit_pipe_w` twice. -/
theorem Runtime.reads_own
    (h : processRuntime.Reach (fun s a => s.PicksKept a ∧ s.ClosesOnce a) s) : s.ReadsOwn := by
  have hs : s.Started := .of_reachable h.reachable
  have hinv : s.Held ∧ s.ReadsHeld := by
    apply h.invariant (I := fun s => s.Held ∧ s.ReadsHeld)
    · intro s hi
      refine ⟨.boot hi, ?_⟩
      obtain ⟨files, -, rfl⟩ := hi
      exact ⟨fun h => (by cases h), fun h => (by cases h)⟩
    · rintro s a t ⟨hh, hr⟩ ⟨hp, hc⟩ hst
      exact ⟨hh.step hc hst, hr.step hh hp hst⟩
  have hr := hinv.2
  exact fun i r file hi hp => ⟨hr.returned hi hp, hs.read hi⟩

/-- The output of the process is read while it runs. -/
def firstRead : List RuntimeAction :=
  firstCreate ++ [.readPick 0 "c1" "init" 10 true, .readReturn 0 true]

theorem Runtime.reads_own_firstRead : ∃ s : Runtime,
    (s.reads.lookup 0).map ReadCall.phase = some (.returned (.start 0 .parentStdout)) ∧
      s.ReadsOwn := by
  have hr : (processRuntime.runIf (fun s a => s.PicksKept a ∧ s.ClosesOnce a) (.boot ∅)
      firstRead).map (fun s => (s.reads.lookup 0).map ReadCall.phase) =
        some (some (.returned (.start 0 .parentStdout))) := by decide
  obtain ⟨s, hs, hp⟩ := Option.map_eq_some_iff.1 hr
  exact ⟨s, hp, Runtime.reads_own (.runIf (.init Runtime.boot_init) hs)⟩

/-- Between the two halves of the read the process is waited for, and a second one is started
whose standard output gets the number. -/
def reusedNumber : List RuntimeAction :=
  firstCreate ++ [.readPick 0 "c1" "init" 10 true, .exit 0 (.exited 7), .reap 0, .record "c1",
    .waitLookup 0 "c1" "init" 10, .waitRead 0, .waitFinish 0,
    .begin ⟨"c1", "second", false, false, 0, 0⟩] ++
    [0, 1, 2, 3, 4, 5, 0, 6, 7, 8, 9, 11, 0, 0, 0, 0, 0, 0, 0, 0, 3, 0].map .start ++
    [.readReturn 0 true]

theorem Runtime.reads_other : ¬ ∀ s, processRuntime.Reach Runtime.LowestFree s → s.ReadsOwn := by
  intro h
  have hr : (processRuntime.runIf Runtime.LowestFree (.boot ∅) reusedNumber).map
      (fun s => s.reads.lookup 0) = some (some ⟨"c1", "init", true, 2, 0,
        .returned (.start 1 .parentStdout)⟩) := by decide
  obtain ⟨s, hs, hp⟩ := Option.map_eq_some_iff.1 hr
  obtain ⟨⟨slot, -, hf⟩, -⟩ := h s (.runIf (.init Runtime.boot_init) hs) 0 _ _ hp rfl
  cases hf

end KataAgent
