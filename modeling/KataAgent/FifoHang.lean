import KataAgent.ExecFifo

namespace KataAgent
open NamedPipe Transition
set_option autoImplicit true

variable {s t : FifoRuntime} {c : String} {i k : Nat}

/-- From now on nothing that needs the sandbox mutex gets it, whatever else happens. -/
def FifoRuntime.Hung (s : FifoRuntime) : Prop :=
  ∀ l t, fifoRuntime.run s l = some t → ∀ a : FifoAction, a.locked = true → t.step a = none

/-- The first process that has this fifo runs, is not left waiting for its parent, and its program
is not yet executed. -/
def FifoRuntime.Due (s : FifoRuntime) (k : Nat) : Prop :=
  (s.runtime.firstOf k).isSome ∧ s.runtime.Runs k ∧ k ∉ s.runtime.stranded ∧
    s.firsts.lookup k ≠ some .executed

/-- A call in its `open` with nobody there and nobody to come. -/
structure FifoRuntime.Stuck (s : FifoRuntime) (i : Nat) (c : String) (k : Nat) : Prop where
  execing : s.execing = some ⟨i, c, k, .opening⟩
  waits : ¬ (s.pipes k).writers.Ready (s.pipes k).readers i
  due : ¬ s.Due k
  unanswered : i ∉ s.answers

theorem FifoRuntime.Stuck.step_locked (hs : s.Stuck i c k) (ha : FifoAction.locked a = true) :
    s.step a = none := by
  cases a with
  | base a =>
    have hu : a.unlocked = false := by simpa [FifoAction.locked] using ha
    exact if_pos (.inr ⟨by simp [hs.execing], hu⟩)
  | startContainer i' c' => exact if_neg fun h => by cases hs.execing.symm.trans h.2.1
  | execOpened =>
    rw [FifoRuntime.step, FifoRuntime.execOpened, hs.execing]
    exact congrArg (Option.map _) (if_neg hs.waits)
  | execWrite => rw [FifoRuntime.step, FifoRuntime.execWrite, hs.execing]
  | execReturn refused => rw [FifoRuntime.step, FifoRuntime.execReturn, hs.execing]
  | execUnwind => rw [FifoRuntime.step, FifoRuntime.execUnwind, hs.execing]
  | _ => cases ha

/-- A process that came and runs can go on. -/
theorem FifoRuntime.Sound.due (hs : s.Sound) (hp : s.Present k phase) (hne : phase ≠ .executed) :
    s.Due k := by
  obtain ⟨⟨c, hf⟩, hn⟩ := hs.known hp.2
  refine ⟨Option.isSome_iff_exists.2 ⟨c, hf⟩, hp.1, hn, fun h => ?_⟩
  cases hp.2.symm.trans h
  exact hne rfl

/-- First processes with other fifos do not help. -/
theorem FifoRuntime.Stuck.firstStep {f : Fifo Unit Nat → Option (Fifo Unit Nat)}
    (hs : s.Stuck i c k) {ph : Option FirstPhase} (hph : ph ≠ some .executed)
    (h : s.firstStep j ph f phase = some t) : t.Stuck i c k := by
  obtain ⟨⟨hf, hr, hn, hd⟩, p, -, rfl⟩ := FifoRuntime.firstStep_eq_some.1 h
  have hne : k ≠ j := by
    rintro rfl
    exact hs.due ⟨hf, hr, hn, hd ▸ hph⟩
  constructor
  case execing => exact hs.execing
  case waits =>
    rw [FifoRuntime.setFirst, FifoRuntime.setPipe_ne s p hne]
    exact hs.waits
  case due =>
    rintro ⟨hfk, hrk, hnk, hl⟩
    refine hs.due ⟨hfk, hrk, hnk, fun hx => hl ?_⟩
    rw [FifoRuntime.setFirst, Table.lookup_insert, if_neg hne]
    exact hx
  case unanswered => exact hs.unanswered

theorem FifoRuntime.Stuck.base_step (hs : s.Stuck i c k) (hS : s.Sound)
    (h : s.base a = some t) : t.Stuck i c k := by
  obtain ⟨-, hl, r, hr, rfl⟩ := FifoRuntime.base_eq_some h
  have ha : a.unlocked = true := hl.resolve_left fun hx => by cases hx.symm.trans hs.execing
  have hc := hS.started.childEffect hr
  obtain ⟨-, hcount, hwriters, -⟩ := FifoRuntime.closeEnds_pipe (hS.pipe k) a
  rw [FifoRuntime.closeEnds_eq]
  constructor
  case execing => exact hs.execing
  case waits =>
    rw [Side.ready_iff]
    dsimp only
    rw [hcount, hwriters, ← Side.ready_iff]
    exact hs.waits
  case due =>
    rintro ⟨hf, hrun, hn, hk⟩
    obtain ⟨c', hf⟩ := Option.isSome_iff_exists.1 hf
    have hf' : s.runtime.firstOf k = some c' := by
      apply hc.firstOf_back _ hf
      rintro n rfl
      cases ha
    apply hs.due
    exact ⟨Option.isSome_iff_exists.2 ⟨c', hf'⟩, hc.runs_back hf' hrun,
      fun hx => hn (Runtime.stranded_mono hr hx), hk⟩
  case unanswered => exact hs.unanswered

theorem FifoRuntime.Stuck.step (hs : s.Stuck i c k) (hS : s.Sound) (h : s.step a = some t) :
    t.Stuck i c k := by
  cases a with
  | base a => exact hs.base_step hS h
  | firstOpen j =>
    rw [FifoRuntime.step, FifoRuntime.firstOpen] at h
    exact hs.firstStep (fun hn => by cases hn) h
  | firstOpened j =>
    rw [FifoRuntime.step, FifoRuntime.firstOpened] at h
    exact hs.firstStep (fun hn => by cases hn) h
  | firstRead j =>
    rw [FifoRuntime.step, FifoRuntime.firstRead] at h
    exact hs.firstStep (fun hn => by cases hn) h
  | firstExec j =>
    obtain ⟨u, hu, -, rfl⟩ := FifoRuntime.firstExec_eq_some h
    have hstuck : u.Stuck i c k := hs.firstStep (fun hn => by cases hn) hu
    exact ⟨hstuck.execing, hstuck.waits, hstuck.due, hstuck.unanswered⟩
  | _ => cases (hs.step_locked rfl).symm.trans h

theorem FifoRuntime.Stuck.run {l : List FifoAction} (hs : s.Stuck i c k) (hS : s.Sound)
    (h : fifoRuntime.run s l = some t) : t.Stuck i c k := by
  induction l generalizing s with
  | nil =>
    cases h
    exact hs
  | cons a l ih =>
    obtain ⟨u, hu, h⟩ := Option.bind_eq_some_iff.1 h
    exact ih (hs.step hS hu) (hS.step hu) h

theorem FifoRuntime.Stuck.hung (hs : s.Stuck i c k) (hS : s.Sound) : s.Hung :=
  fun _ _ h _ ha => (hs.run hS h).step_locked ha

/-- The call is over, and came back. -/
structure FifoRuntime.Returned (s t : FifoRuntime) (i : Nat) (c : String) : Prop where
  answer : t.answers.lookup i = some (c, none)
  execing : t.execing = none
  runtime : t.runtime = s.runtime

/-- After its byte the call can come back. -/
theorem FifoRuntime.execReturn_of (hex : s.execing = some ⟨i, c, k, .written⟩) :
    ∃ t, fifoRuntime.step s (.execReturn none) = some t ∧ s.Returned t i c := by
  change ∃ t, s.execReturn none = some t ∧ s.Returned t i c
  rw [FifoRuntime.execReturn, hex]
  exact ⟨_, rfl, Finmap.lookup_insert _, rfl, rfl⟩

theorem FifoRuntime.execWrite_of (hex : s.execing = some ⟨i, c, k, .opened⟩)
    (hk : (s.pipes k).readers.ends.lookup () = some e) :
    ∃ t, fifoRuntime.Leads s t ∧ s.Returned t i c := by
  obtain ⟨u, hu, hux, hur⟩ : ∃ u, fifoRuntime.step s .execWrite = some u ∧
      u.execing = some ⟨i, c, k, .written⟩ ∧ u.runtime = s.runtime := by
    change ∃ u, s.execWrite = some u ∧ _
    rw [FifoRuntime.execWrite, hex]
    dsimp only
    rw [Fifo.write, if_neg (Side.ne_empty hk)]
    exact ⟨_, rfl, rfl, rfl⟩
  obtain ⟨t, ht, hret⟩ := FifoRuntime.execReturn_of hux
  exact ⟨t, .head hu (.single ht), hret.answer, hret.execing, hret.runtime.trans hur⟩

/-- With the process at the fifo the call goes through. -/
theorem FifoRuntime.Sound.exec_returns (hs : s.Sound)
    (hex : s.execing = some ⟨i, c, k, .opening⟩)
    (hk : (s.pipes k).readers.ends.lookup () = some e) :
    ∃ t, fifoRuntime.Leads s t ∧ s.Returned t i c := by
  have hready : (s.pipes k).writers.Ready (s.pipes k).readers i := by
    obtain ⟨e', he', hh⟩ := (hs.execing hex).writer
    cases e' with
    | opening waits => exact (hs.pipe k).writers.ready he' hk
    | held => exact hh.elim
  obtain ⟨u, hu, hux, hup, hur⟩ : ∃ u, fifoRuntime.step s .execOpened = some u ∧
      u.execing = some ⟨i, c, k, .opened⟩ ∧ (u.pipes k).readers = (s.pipes k).readers ∧
        u.runtime = s.runtime := by
    change ∃ u, s.execOpened = some u ∧ _
    rw [FifoRuntime.execOpened, hex]
    dsimp only
    rw [Fifo.enterWriter, if_pos hready]
    refine ⟨_, rfl, rfl, ?_, rfl⟩
    rw [FifoRuntime.setPipe_self]
  obtain ⟨t, ht, hret⟩ := FifoRuntime.execWrite_of hux (hup ▸ hk)
  exact ⟨t, .head hu ht, hret.answer, hret.execing, hret.runtime.trans hur⟩

/-- A process that is still to come makes the call go through when it comes. -/
theorem FifoRuntime.Sound.due_returns (hs : s.Sound)
    (hex : s.execing = some ⟨i, c, k, .opening⟩) (hd : s.Due k) :
    ∃ t, fifoRuntime.Leads s t ∧ s.Returned t i c := by
  obtain ⟨hf, hr, hn, hk⟩ := hd
  cases hph : s.firsts.lookup k with
  | some phase =>
    obtain ⟨e, he⟩ := hs.present ⟨hr, hph⟩ fun h => hk (h ▸ hph)
    exact hs.exec_returns hex he
  | none =>
    have hopen : fifoRuntime.step s (.firstOpen k) =
        some (s.setFirst k ((s.pipes k).comeReader ()) .opening) := by
      change s.firstOpen k = _
      rw [FifoRuntime.firstOpen]
      exact FifoRuntime.firstStep_eq_some.2 ⟨⟨hf, hr, hn, hph⟩, _, rfl, rfl⟩
    obtain ⟨e, hcame⟩ : ∃ e, ((s.setFirst k ((s.pipes k).comeReader ()) .opening).pipes
        k).readers.ends.lookup () = some e := by
      rw [FifoRuntime.setFirst, FifoRuntime.setPipe_self]
      exact ⟨_, Finmap.lookup_insert _⟩
    obtain ⟨t, ht, hret⟩ := (hs.firstOpen hopen).exec_returns hex hcame
    exact ⟨t, .head hopen ht, hret.answer, hret.execing, hret.runtime⟩

/-- A call that finds a fifo whose process is past it, or has ended, is stuck at once. -/
theorem FifoRuntime.Sound.stuck (hs : s.Sound) (hi : i ∉ s.answers) (hd : ¬ s.Due k) :
    FifoRuntime.Stuck { s.setPipe k ((s.pipes k).comeWriter i) with
      execing := some ⟨i, c, k, .opening⟩ } i c k := by
  have hnone : (s.pipes k).readers.ends = ∅ := by
    by_contra hne
    obtain ⟨u, e, he⟩ := Side.exists_lookup hne
    obtain ⟨phase, hp, hh⟩ := hs.reader he
    refine hd (hs.due hp ?_)
    rintro rfl
    exact FirstPhase.has_executed e hh
  constructor
  case execing => rfl
  case waits =>
    dsimp only
    rw [FifoRuntime.setPipe_self]
    exact Side.come_not_ready hnone
  case due => exact hd
  case unanswered => exact hi

end KataAgent
