import KataAgent.ProcessRuntime

namespace KataAgent
set_option autoImplicit true

/-- The requests that unwind with the mutex, other than a `WaitProcess` whose record is gone. -/
def Runtime.Unwinds (s : Runtime) : RuntimeAction → Prop
  | .abandon unwinds _ => unwinds = true
  | .readPick _ containerId execId pid stdout =>
    stdout = false ∧ ∃ e ∈ s.found containerId execId pid, e.streamFd stdout = none
  | .removeContainer containerId _ => containerId ∉ s.containers
  | .destroyContainer _ containerId ok => ¬ (containerId ∈ s.containers ∧ ok = true)
  | _ => False

instance : Decidable (Runtime.Unwinds s a) := by
  cases a <;> unfold Runtime.Unwinds <;> infer_instance

/-- What each action can do, and in which states. -/
inductive Runtime.Effect (s : Runtime) : RuntimeAction → Runtime → Prop where
  | spawn (h : ¬ s.pidTaken pid) : Effect s (.spawn pid copies) { s with
      next := s.next + 1
      children := s.children.insert s.next ⟨pid, .running, none⟩
      inherited := s.inherited.insert s.next copies }
  | exec (h : s.Runs k) : Effect s (.exec k) { s with inherited := s.inherited.erase k }
  | exit (h : s.children.lookup k = some c) (hp : c.phase = .running) :
      Effect s (.exit k status) (s.setPhase k (.zombie status))
  | reap (hi : s.reaper = .idle) (h : s.children.lookup k = some c)
      (hp : c.phase = .zombie status) (hv : status.known = true) :
      Effect s (.reap k) { s.setPhase k (.reaped status) with reaper := .holding k c.pid status }
  | lose (h : s.children.lookup k = some c) (hp : c.phase = .zombie status)
      (hv : status.known = false) : Effect s (.reap k) (s.setPhase k (.lost status))
  | unwindReaper (hr : s.reaper = .holding k pid status) (hst : s.starting = none)
      (hp : s.poisoned = true) : Effect s (.record containerId) { s with reaper := .dead }
  | endRound (hr : s.reaper = .holding k pid status) (hst : s.starting = none)
      (h : s.holders pid = ∅ ∨
        ∃ e, s.entry containerId pid = some e ∧ e.exitPipeW = none) :
      Effect s (.record containerId) (s.endRound k status)
  | writeExit (hr : s.reaper = .holding k pid status) (hst : s.starting = none)
      (he : s.entry containerId pid = some e) (hw : e.exitPipeW = some pipeWrite) :
      Effect s (.record containerId) (s.writeExit containerId k pid status e pipeWrite)
  | begin (h : s.lockable) : Effect s (.begin req) { s with
      next := s.next + 1
      starting := some ⟨s.next, req, ∅, none, req.program⟩ }
  | openAt (hst : s.starting = some st) (hr : st.rest = .openAt slot :: rest) (hn : n ∉ s.files) :
      Effect s (.start n) { s with
        files := s.files.insert n (.start st.id slot)
        opened := s.opened ++ [(st.id, slot)]
        starting := some { st with rest := rest, slots := st.slots.insert slot n } }
  | closeAt (hst : s.starting = some st) (hr : st.rest = .close slot :: rest)
      (hfd : st.slots.lookup slot = some fd) :
      Effect s (.start n) { s.closeAll st.id [(slot, fd)] with
        starting := some { st with rest := rest, slots := st.slots.erase slot } }
  | getContainer (hst : s.starting = some st) (hr : st.rest = .getContainer :: rest)
      (hc : st.request.containerId ∈ s.containers) :
      Effect s (.start n) { s with starting := some { st with rest := rest } }
  | makeFifo (hst : s.starting = some st) (hr : st.rest = .makeFifo :: rest)
      (hc : st.request.containerId ∉ s.fifos) :
      Effect s (.start n) { s with
        fifos := s.fifos.insert st.request.containerId st.id
        starting := some { st with rest := rest } }
  | fork (hst : s.starting = some st) (hr : st.rest = .fork :: rest) (hp : ¬ s.pidTaken pid) :
      Effect s (.start pid) { s with
        children := s.children.insert st.id
          ⟨pid, .running, some st.request⟩
        inherited := s.inherited.insert st.id s.exitWriters
        starting := some { st with rest := rest, child := some pid } }
  | register (hst : s.starting = some st) (hr : st.rest = []) (hc : st.child = some pid) :
      Effect s (.start n) (s.register st pid)
  | abandon (hst : s.starting = some st) : Effect s (.abandon unwinds strands) { s with
      starting := none
      poisoned := s.poisoned || unwinds
      stranded := if strands then insert st.id s.stranded else s.stranded }
  | hang (hst : s.starting = some st) (hc : st.child ≠ none) : Effect s .hang { s with stuck := true }
  | waitLookup (h : s.found containerId execId pid = some e) (hi : i ∉ s.waits) :
      Effect s (.waitLookup i containerId execId pid) { s with
        waits := s.waits.insert i ⟨containerId, execId, pid, e.exitPipeR, e.owner,
          if e.exitPipeR = none then .finishing else .reading⟩ }
  | waitRead (h : s.waits.lookup i = some w) (hp : w.phase = .reading)
      (hr : w.exitPipeR = some fd) (hb : ¬ s.blocks fd) :
      Effect s (.waitRead i) (s.setWait i .finishing)
  | waitPanic (h : s.waits.lookup i = some w) (hp : w.phase = .finishing) (hst : s.starting = none)
      (hn : s.poisoned = true ∨ s.entry w.containerId w.pid = none) :
      Effect s (.waitFinish i) { s.setWait i .panicked with poisoned := true }
  | waitReturn (h : s.waits.lookup i = some w) (hp : w.phase = .finishing)
      (hst : s.starting = none) (hn : s.poisoned = false)
      (he : s.entry w.containerId w.pid = some e) :
      Effect s (.waitFinish i) (((s.closeAll e.owner (e.fds waitSlots)).removeEntry w.containerId
        w.pid).setWait i (.returned e.exitCode))
  | readPick (h : s.found containerId execId pid = some e) (hf : e.streamFd stdout = some fd)
      (hi : i ∉ s.reads) : Effect s (.readPick i containerId execId pid stdout) { s with
        reads := s.reads.insert i ⟨containerId, execId, stdout, fd, e.owner, .reading⟩ }
  | readReturn (h : s.reads.lookup i = some r) (hp : r.phase = .reading)
      (hf : s.files.lookup r.fd = some file) :
      Effect s (.readReturn i true) (s.setRead i (.returned file))
  | readFail (h : s.reads.lookup i = some r) (hp : r.phase = .reading) :
      Effect s (.readReturn i ok) (s.setRead i .failed)
  | closeStdin (h : s.found containerId execId pid = some e) :
      Effect s (.closeStdin containerId execId pid)
        ((s.closeAll e.owner (e.fds [.termMaster, .parentStdin])).setEntry containerId pid
          { e with termMaster := none, parentStdin := none })
  | unwind (hl : s.lockable) (h : s.Unwinds a) : Effect s a { s with poisoned := true }
  | removeFail : Effect s (.removeContainer containerId false) s
  | removeContainer (hl : s.lockable) : Effect s (.removeContainer containerId true)
      { s with containers := s.containers.erase containerId }
  | destroyContainer (hl : s.lockable) (hi : i ∉ s.removals) :
      Effect s (.destroyContainer i containerId true)
        { s with removals := s.removals.insert i containerId }
  | removeDestroyed (hl : s.lockable) (h : s.removals.lookup i = some containerId) :
      Effect s (.removeDestroyed i) { s with
        containers := s.containers.erase containerId
        removals := s.removals.erase i }
  | hangDestroy (hl : s.lockable) (hc : containerId ∈ s.containers) :
      Effect s (.hangDestroy containerId) { s with stuck := true }
  | createSandbox (hl : s.lockable) : Effect s (.createSandbox wiped)
      { s with fifos := wiped.foldl (fun fifos containerId => fifos.erase containerId) s.fifos }
  | openOther (hn : fd ∉ s.files) :
      Effect s (.openOther fd) { s with files := s.files.insert fd .other }
  | closeOther (h : s.files.lookup fd = some .other) :
      Effect s (.closeOther fd) { s with files := s.files.erase fd }

variable {s t : Runtime}

theorem Runtime.record_effect (h : s.record containerId = some t) :
    s.Effect (.record containerId) t := by
  rw [Runtime.record] at h
  split at h
  · rename_i k pid status hr hst
    rw [Option.ite_none_left_eq_some] at h
    obtain ⟨-, h⟩ := h
    split at h
    · rename_i hp
      cases h
      exact .unwindReaper hr hst hp
    split at h
    · rename_i he
      cases h
      exact .endRound hr hst (.inl he)
    split at h
    · cases h
    · rename_i e he
      split at h
      · rename_i hw
        cases h
        exact .endRound hr hst (.inr ⟨e, he, hw⟩)
      · rename_i w hw
        cases h
        exact .writeExit hr hst he hw
  · cases h

theorem Runtime.startStep_effect (h : s.startStep n = some t) : s.Effect (.start n) t := by
  rw [Runtime.startStep] at h
  split at h
  · cases h
  · rename_i st hst
    rw [Option.ite_none_left_eq_some] at h
    obtain ⟨-, h⟩ := h
    split at h
    · rename_i hr
      obtain ⟨pid, hc, rfl⟩ := Option.map_eq_some_iff.1 h
      exact .register hst hr hc
    · rename_i i rest hr
      cases i with
      | openAt slot =>
        simp only [Runtime.instr, Option.ite_none_left_eq_some] at h
        obtain ⟨hn, ⟨⟩⟩ := h
        exact .openAt hst hr hn
      | close slot =>
        simp only [Runtime.instr] at h
        split at h
        · cases h
        · rename_i fd hfd
          rw [Option.ite_none_left_eq_some] at h
          obtain ⟨-, ⟨⟩⟩ := h
          exact .closeAt hst hr hfd
      | getContainer =>
        simp only [Runtime.instr, Option.ite_none_right_eq_some] at h
        obtain ⟨hc, ⟨⟩⟩ := h
        exact .getContainer hst hr hc
      | makeFifo =>
        simp only [Runtime.instr, Option.ite_none_left_eq_some] at h
        obtain ⟨hc, ⟨⟩⟩ := h
        exact .makeFifo hst hr hc
      | fork =>
        simp only [Runtime.instr, Option.ite_none_left_eq_some] at h
        obtain ⟨hp, ⟨⟩⟩ := h
        exact .fork hst hr hp

theorem Runtime.waitFinish_effect (h : s.waitFinish i = some t) : s.Effect (.waitFinish i) t := by
  rw [Runtime.waitFinish] at h
  split at h
  · rename_i hw hst
    rw [Option.ite_none_left_eq_some] at h
    obtain ⟨-, h⟩ := h
    split at h
    · rename_i hp
      cases h
      have heq : s.setWait i .panicked = { s.setWait i .panicked with poisoned := true } := by
        rw [← hp]
        rfl
      rw [heq]
      exact .waitPanic hw rfl hst (.inl hp)
    split at h
    · rename_i he
      cases h
      exact .waitPanic hw rfl hst (.inr he)
    · rename_i hp _ e he
      cases h
      exact .waitReturn hw rfl hst (by simpa using hp) he
  · cases h

theorem Runtime.readPick_effect (h : s.readPick i containerId execId pid stdout = some t) :
    s.Effect (.readPick i containerId execId pid stdout) t := by
  rw [Runtime.readPick] at h
  split at h
  · cases h
  · rename_i e he
    split at h
    · rename_i hf
      split at h
      · cases h
      · rename_i ho
        cases h
        exact .unwind (Runtime.found_eq_some.1 he).1 ⟨Bool.eq_false_iff.2 ho, e, he, hf⟩
    · rename_i fd hf
      rw [Option.ite_none_left_eq_some] at h
      obtain ⟨hi, ⟨⟩⟩ := h
      exact .readPick he hf hi

theorem Runtime.readReturn_effect (h : s.readReturn i ok = some t) :
    s.Effect (.readReturn i ok) t := by
  rw [Runtime.readReturn] at h
  split at h
  · rename_i hr
    split at h
    · rename_i file hf
      cases h
      exact .readReturn hr rfl hf
    · cases h
      exact .readFail hr rfl
  · cases h

theorem Runtime.removeContainer_effect (h : s.removeContainer containerId ok = some t) :
    s.Effect (.removeContainer containerId ok) t := by
  rw [Runtime.removeContainer] at h
  split at h
  · rename_i hl
    split at h
    · rename_i hc
      cases h
      exact .unwind hl hc
    split at h
    · rename_i hok
      cases h
      rw [hok]
      exact .removeContainer hl
    · rename_i hok
      cases h
      rw [Bool.eq_false_iff.2 hok]
      exact .removeFail
  · cases h

theorem Runtime.destroyContainer_effect (h : s.destroyContainer i containerId ok = some t) :
    s.Effect (.destroyContainer i containerId ok) t := by
  rw [Runtime.destroyContainer] at h
  split at h
  · rename_i hl
    split at h
    · rename_i hok
      cases h
      rw [hok.2]
      exact .destroyContainer hl.1 hl.2
    · rename_i hok
      cases h
      exact .unwind hl.1 hok
  · cases h

theorem Runtime.step_effect (h : s.step a = some t) : s.Effect a t := by
  cases a with
  | spawn pid copies =>
    simp only [Runtime.step, Runtime.spawn, Option.ite_none_left_eq_some] at h
    obtain ⟨hp, ⟨⟩⟩ := h
    exact .spawn fun h => hp (.inl h)
  | exec k =>
    simp only [Runtime.step, Runtime.exec, Option.ite_none_right_eq_some] at h
    obtain ⟨hr, ⟨⟩⟩ := h
    exact .exec hr
  | exit k status =>
    simp only [Runtime.step, Runtime.exit] at h
    split at h
    · rename_i hk
      cases h
      exact .exit hk rfl
    · cases h
  | reap k =>
    simp only [Runtime.step, Runtime.reap] at h
    split at h
    · rename_i hi hk
      split at h
      · rename_i hv
        cases h
        exact .reap hi hk rfl hv
      · rename_i hv
        cases h
        exact .lose hk rfl (Bool.eq_false_iff.2 hv)
    · cases h
  | record containerId => exact Runtime.record_effect h
  | begin req =>
    simp only [Runtime.step, Runtime.begin, Option.ite_none_right_eq_some] at h
    obtain ⟨hl, ⟨⟩⟩ := h
    exact .begin hl
  | start n => exact Runtime.startStep_effect h
  | abandon unwinds strands =>
    simp only [Runtime.step, Runtime.abandon] at h
    split at h
    · cases h
    · rename_i st hst
      rw [Option.ite_none_left_eq_some] at h
      obtain ⟨-, ⟨⟩⟩ := h
      exact .abandon hst
  | hang =>
    simp only [Runtime.step, Runtime.hang] at h
    split at h
    · cases h
    · rename_i st hst
      rw [Option.ite_none_left_eq_some] at h
      obtain ⟨hc, ⟨⟩⟩ := h
      exact .hang hst hc
  | waitLookup i containerId execId pid =>
    simp only [Runtime.step, Runtime.waitLookup] at h
    split at h
    · cases h
    · rename_i he
      rw [Option.ite_none_left_eq_some] at h
      obtain ⟨hi, ⟨⟩⟩ := h
      exact .waitLookup he hi
  | waitRead i =>
    simp only [Runtime.step, Runtime.waitRead] at h
    split at h
    · rename_i hw
      rw [Option.ite_none_left_eq_some] at h
      obtain ⟨hb, ⟨⟩⟩ := h
      exact .waitRead hw rfl rfl hb
    · cases h
  | waitFinish i => exact Runtime.waitFinish_effect h
  | readPick i containerId execId pid stdout => exact Runtime.readPick_effect h
  | readReturn i ok => exact Runtime.readReturn_effect h
  | closeStdin containerId execId pid =>
    obtain ⟨e, he, rfl⟩ := Option.map_eq_some_iff.1 h
    exact .closeStdin he
  | removeContainer containerId ok => exact Runtime.removeContainer_effect h
  | destroyContainer i containerId ok => exact Runtime.destroyContainer_effect h
  | removeDestroyed i =>
    simp only [Runtime.step, Runtime.removeDestroyed] at h
    split at h
    · cases h
    · rename_i hc
      rw [Option.ite_none_right_eq_some] at h
      obtain ⟨hl, ⟨⟩⟩ := h
      exact .removeDestroyed hl hc
  | hangDestroy containerId =>
    simp only [Runtime.step, Runtime.hangDestroy, Option.ite_none_right_eq_some] at h
    obtain ⟨⟨hl, hc⟩, ⟨⟩⟩ := h
    exact .hangDestroy hl hc
  | createSandbox wiped =>
    simp only [Runtime.step, Runtime.createSandbox, Option.ite_none_right_eq_some] at h
    obtain ⟨hl, ⟨⟩⟩ := h
    exact .createSandbox hl
  | openOther fd =>
    simp only [Runtime.step, Runtime.openOther, Option.ite_none_left_eq_some] at h
    obtain ⟨hn, ⟨⟩⟩ := h
    exact .openOther hn
  | closeOther fd =>
    simp only [Runtime.step, Runtime.closeOther, Option.ite_none_right_eq_some] at h
    obtain ⟨hf, ⟨⟩⟩ := h
    exact .closeOther hf

end KataAgent
