import KataAgent.SandboxLife

namespace KataAgent
open NamedPipe Transition
set_option autoImplicit true

variable {r r' : Runtime} {f f' : FifoRuntime} {s t : SandboxLife} {i k : Nat} {c : String}

/-- No call can get the mutex, or give it back. -/
inductive SandboxLife.Blocked (s : SandboxLife) : Prop where
  | poisoned (h : s.agent.runtime.poisoned = true)
  | hangs (h : s.agent.runtime.stuck = true)
  | destroys {d : Destroyer} (hd : s.destroyer = some d) (h : d.stuck = true)
  | starts {i : Nat} {c : String} {k : Nat} (h : s.agent.Stuck i c k)

theorem Runtime.poisoned_step {a : RuntimeAction} (hp : r.poisoned = true)
    (h : r.step a = some r') : r'.poisoned = true := by
  cases Runtime.step_effect h with
  | abandon =>
    dsimp only
    rw [hp, Bool.true_or]
  | register => exact Runtime.register_poisoned.trans hp
  | waitPanic => rfl
  | unwind => rfl
  | _ => exact hp

theorem Runtime.stuck_step {a : RuntimeAction} (hp : r.stuck = true)
    (h : r.step a = some r') : r'.stuck = true := by
  cases Runtime.step_effect h with
  | register => exact Runtime.register_stuck.trans hp
  | hang => rfl
  | hangDestroy => rfl
  | _ => exact hp

theorem SandboxLife.Blocked.not_lockable (hb : s.Blocked) (hl : s.agent.runtime.lockable)
    (hx : s.agent.execing = none) : ∃ d, s.destroyer = some d ∧ d.stuck = true := by
  cases hb with
  | poisoned h => cases h.symm.trans hl.2.1
  | hangs h => cases h.symm.trans hl.2.2
  | destroys hd h => exact ⟨_, hd, h⟩
  | starts h => cases hx.symm.trans h.execing

/-- A call that holds the mutex of a blocked agent waits for ever. -/
theorem SandboxLife.Blocked.held {d : Destroyer} (hb : s.Blocked) (hs : s.Sound)
    (hd : s.destroyer = some d) : d.stuck = true := by
  obtain ⟨hl, hx, -⟩ := hs.held hd
  obtain ⟨d', hd', h⟩ := hb.not_lockable hl hx
  cases hd.symm.trans hd'
  exact h

theorem SandboxLife.Blocked.base {a : FifoAction} (hb : s.Blocked) (hs : s.Sound)
    (hf : s.agent.step a = some f) : SandboxLife.Blocked { s with agent := f } := by
  have hS := FifoRuntime.Sound.of_reachable hs.base
  cases hb with
  | poisoned h =>
    apply SandboxLife.Blocked.poisoned
    rcases hS.runtime_step hf with hr | ⟨b, hb, -⟩
    · exact (congrArg Runtime.poisoned hr).trans h
    · exact Runtime.poisoned_step h hb
  | hangs h =>
    apply SandboxLife.Blocked.hangs
    rcases hS.runtime_step hf with hr | ⟨b, hb, -⟩
    · exact (congrArg Runtime.stuck hr).trans h
    · exact Runtime.stuck_step h hb
  | destroys hd h => exact .destroys hd h
  | starts h => exact .starts (h.step hS hf)

/-- Nothing was sent to `main`, and no call can send it anything. -/
structure SandboxLife.Lost (s : SandboxLife) : Prop where
  unsent : s.destroyed = []
  blocked : s.Blocked

theorem SandboxLife.Lost.step {a : SandboxAction} (hl : s.Lost) (hs : s.Sound)
    (h : s.step a = some t) : t.Lost := by
  have hheld {d : Destroyer} (hd : s.destroyer = some d) := hl.blocked.held hs hd
  cases a with
  | base a =>
    change s.base a = some t at h
    rw [SandboxLife.base, Option.ite_none_left_eq_some] at h
    obtain ⟨f, hf, rfl⟩ := Option.map_eq_some_iff.1 h.2
    exact ⟨hl.unsent, hl.blocked.base hs hf⟩
  | destroySandbox order =>
    change s.destroySandbox order = some t at h
    rw [SandboxLife.destroySandbox, Option.ite_none_right_eq_some] at h
    obtain ⟨⟨hlock, hx, hnone, -⟩, -⟩ := h
    obtain ⟨d, hd, -⟩ := hl.blocked.not_lockable hlock hx
    cases hnone.symm.trans hd
  | recv =>
    change s.recv = some t at h
    rw [SandboxLife.recv, Option.ite_none_right_eq_some] at h
    cases hs.sent with
    | unsent _ hm =>
      rw [hm] at h
      cases h.1.2
    | once _ _ hdest => cases hl.unsent.symm.trans hdest
  | enter ok =>
    change s.enter ok = some t at h
    rw [SandboxLife.enter] at h
    split at h
    · rename_i hd
      cases hheld hd
    · cases h
  | kill child =>
    change s.kill child = some t at h
    rw [SandboxLife.kill] at h
    split at h
    · rename_i hd
      cases hheld hd
    · cases h
  | esrch =>
    change s.esrch = some t at h
    rw [SandboxLife.esrch] at h
    split at h
    · rename_i hd
      cases hheld hd
    · cases h
  | leave ok =>
    change s.leave ok = some t at h
    rw [SandboxLife.leave] at h
    split at h
    · rename_i hd
      cases hheld hd
    · cases h
  | hang =>
    change s.hang = some t at h
    rw [SandboxLife.hang] at h
    split at h
    · rename_i hd
      cases hheld hd
    · cases h
  | send =>
    change s.send = some t at h
    rw [SandboxLife.send] at h
    split at h
    · rename_i hd
      cases hheld hd
    · cases h

theorem SandboxLife.Sound.run {l : List SandboxAction} (hs : s.Sound)
    (h : sandboxLife.run s l = some t) : t.Sound := by
  induction l generalizing s with
  | nil =>
    cases h
    exact hs
  | cons a l ih =>
    obtain ⟨u, hu, h⟩ := Option.bind_eq_some_iff.1 h
    exact ih (hs.step hu) h

theorem SandboxLife.Lost.run {l : List SandboxAction} (hl : s.Lost) (hs : s.Sound)
    (h : sandboxLife.run s l = some t) : t.Lost := by
  induction l generalizing s with
  | nil =>
    cases h
    exact hl
  | cons a l ih =>
    obtain ⟨u, hu, h⟩ := Option.bind_eq_some_iff.1 h
    exact ih (hl.step hs hu) (hs.step hu) h

theorem SandboxLife.Lost.ended (hl : s.Lost) (hs : s.Sound) : s.ended = false := by
  cases hs.sent with
  | unsent _ _ ho => exact ho
  | once _ _ hdest => cases hl.unsent.symm.trans hdest

theorem SandboxLife.leads_base (hd : s.destroyer = none)
    (h : fifoRuntime.Leads s.agent f) : sandboxLife.Leads s { s with agent := f } := by
  obtain ⟨l, hl⟩ := h
  induction l generalizing s with
  | nil =>
    cases hl
    exact .refl sandboxLife s
  | cons a l ih =>
    obtain ⟨g, hg, hl⟩ := Option.bind_eq_some_iff.1 hl
    have hstep : sandboxLife.step s (.base a) = some { s with agent := g } := by
      change s.base a = _
      rw [SandboxLife.base, if_neg fun h => h.1 hd]
      exact congrArg (Option.map _) hg
    exact .head hstep (ih (s := { s with agent := g }) hd hl)

theorem FifoRuntime.execWrite_leads (hx : f.execing = some ⟨i, c, k, .opened⟩) :
    ∃ f', fifoRuntime.Leads f f' ∧ f'.execing = none ∧ f'.runtime = f.runtime := by
  by_cases hk : (f.pipes k).readers.ends = ∅
  · have hfail : fifoRuntime.step f .execWrite = some (f.answer i c (some (.nix .EPIPE))) := by
      change f.execWrite = _
      rw [FifoRuntime.execWrite, hx]
      dsimp only
      rw [Fifo.write, if_pos hk]
    exact ⟨_, .single hfail, rfl, rfl⟩
  · obtain ⟨u, e, he⟩ := Side.exists_lookup hk
    obtain ⟨t, ht, hret⟩ := FifoRuntime.execWrite_of hx he
    exact ⟨t, ht, hret.execing, hret.runtime⟩

/-- A `StartContainer` call that is not stuck can give the mutex back. -/
theorem FifoRuntime.Sound.freed (hs : f.Sound) (hn : ∀ i c k, ¬ f.Stuck i c k) :
    ∃ f', fifoRuntime.Leads f f' ∧ f'.execing = none ∧ f'.runtime = f.runtime := by
  match hx : f.execing with
  | none => exact ⟨f, .refl fifoRuntime f, hx, rfl⟩
  | some ⟨i, c, k, .written⟩ =>
    obtain ⟨t, ht, hret⟩ := FifoRuntime.execReturn_of hx
    exact ⟨t, .single ht, hret.execing, hret.runtime⟩
  | some ⟨i, c, k, .opened⟩ => exact FifoRuntime.execWrite_leads hx
  | some ⟨i, c, k, .opening⟩ =>
    by_cases hready : (f.pipes k).writers.Ready (f.pipes k).readers i
    · obtain ⟨g, hg, hgx, hgr⟩ : ∃ g, fifoRuntime.step f .execOpened = some g ∧
          g.execing = some ⟨i, c, k, .opened⟩ ∧ g.runtime = f.runtime := by
        change ∃ g, f.execOpened = some g ∧ _
        rw [FifoRuntime.execOpened, hx]
        dsimp only
        rw [Fifo.enterWriter, if_pos hready]
        exact ⟨_, rfl, rfl, rfl⟩
      obtain ⟨f', hf', hfx, hfr⟩ := FifoRuntime.execWrite_leads hgx
      exact ⟨f', .head hg hf', hfx, hfr.trans hgr⟩
    · by_cases hdue : f.Due k
      · obtain ⟨f', hf', hret⟩ := hs.due_returns hx hdue
        exact ⟨f', hf', hret.execing, hret.runtime⟩
      · exact absurd ⟨hx, hready, hdue, (hs.execing hx).unanswered⟩ (hn i c k)

/-- A start that holds the mutex can fail, unless it waits for ever. -/
theorem FifoRuntime.lockable_leads (hx : f.execing = none) (hp : f.runtime.poisoned = false)
    (hk : f.runtime.stuck = false) :
    ∃ f', fifoRuntime.Leads f f' ∧ f'.execing = none ∧ f'.runtime.lockable := by
  cases hst : f.runtime.starting with
  | none => exact ⟨f, .refl fifoRuntime f, hx, hst, hp, hk⟩
  | some st =>
    have hr : f.runtime.step (.abandon false false) =
        some { f.runtime with starting := none, poisoned := f.runtime.poisoned || false } := by
      rw [Runtime.step, Runtime.abandon, hst]
      dsimp only
      rw [hk]
      rfl
    have hstep : fifoRuntime.step f (.base (.abandon false false)) = some { f with runtime :=
        { f.runtime with starting := none, poisoned := f.runtime.poisoned || false } } := by
      change f.base _ = _
      rw [FifoRuntime.base, if_neg, hr]
      · rfl
      · rintro (hf | hf)
        · cases hf
        · exact hf.1 hx
    refine ⟨_, .single hstep, hx, rfl, ?_, hk⟩
    exact (Bool.or_false _).trans hp

/-- Maps can be walked. -/
theorem Runtime.exists_lists (r : Runtime) : ∃ order, r.Lists order := by
  refine ⟨r.containers.keys.toList.map fun c =>
    (c, ((r.containers.lookup c).elim ∅ Finmap.keys).toList), ?_⟩
  have hfst : (r.containers.keys.toList.map fun c =>
      (c, ((r.containers.lookup c).elim ∅ Finmap.keys).toList)).map Prod.fst =
        r.containers.keys.toList := by
    rw [List.map_map]
    exact List.map_id _
  refine ⟨?_, ?_, ?_⟩
  · rw [hfst]
    exact Finset.nodup_toList _
  · rw [hfst, Finset.toList_toFinset]
  · intro x hx
    obtain ⟨c, hc, rfl⟩ := List.mem_map.1 hx
    obtain ⟨processes, hp⟩ := Table.mem_keys_iff.1 (Finset.mem_toList.1 hc)
    refine ⟨Finset.nodup_toList _, processes, hp, ?_⟩
    dsimp only
    rw [hp, Option.elim_some, Finset.toList_toFinset]

theorem Runtime.exists_takes (r : Runtime) (pid : Pid) : ∃ child, r.Takes pid child := by
  by_cases h : r.pidTaken pid
  · obtain ⟨k, -, hk⟩ := h
    exact ⟨some k, hk⟩
  · exact ⟨none, h⟩

/-- The signals of one container. -/
theorem SandboxLife.kill_leads {c : String} {pids : List Pid} {rest : List (String × List Pid)}
    {signals : List (String × Pid × Option Nat)}
    (hd : s.destroyer = some ⟨some (c, pids), rest, signals, false⟩) :
    ∃ signals', sandboxLife.Leads s
      { s with destroyer := some ⟨none, rest, signals', false⟩ } := by
  induction pids generalizing s signals with
  | nil =>
    refine ⟨signals, .single (a := .leave true) ?_⟩
    change s.leave true = _
    rw [SandboxLife.leave, hd]
    rfl
  | cons pid pids ih =>
    obtain ⟨child, hchild⟩ := s.agent.runtime.exists_takes pid
    obtain ⟨signals', hlead⟩ := ih (s := { s with
      destroyer := some ⟨some (c, pids), rest, signals ++ [(c, pid, child)], false⟩ }) rfl
    refine ⟨signals', .head (a := .kill child) ?_ hlead⟩
    change s.kill child = _
    rw [SandboxLife.kill, hd]
    exact if_pos hchild

theorem SandboxLife.rest_leads {rest : List (String × List Pid)}
    {signals : List (String × Pid × Option Nat)}
    (hd : s.destroyer = some ⟨none, rest, signals, false⟩) :
    ∃ signals', sandboxLife.Leads s { s with destroyer := some ⟨none, [], signals', false⟩ } := by
  induction rest generalizing s signals with
  | nil =>
    refine ⟨signals, ?_⟩
    rw [← hd]
    exact .refl sandboxLife s
  | cons x rest ih =>
    have henter : sandboxLife.step s (.enter true) =
        some { s with destroyer := some ⟨some x, rest, signals, false⟩ } := by
      change s.enter true = _
      rw [SandboxLife.enter, hd]
      rfl
    obtain ⟨signals', hkill⟩ := SandboxLife.kill_leads (s := { s with
      destroyer := some ⟨some x, rest, signals, false⟩ }) rfl
    obtain ⟨signals'', hrest⟩ := ih (s := { s with
      destroyer := some ⟨none, rest, signals', false⟩ }) rfl
    exact ⟨signals'', .head henter (hkill.trans hrest)⟩

/-- A call that holds the mutex can get through. -/
theorem SandboxLife.destroyer_leads {d : Destroyer} (hd : s.destroyer = some d)
    (hk : d.stuck = false) :
    ∃ signals', sandboxLife.Leads s { s with destroyer := some ⟨none, [], signals', false⟩ } := by
  obtain ⟨current, rest, signals, stuck⟩ := d
  cases hk
  cases current with
  | none => exact SandboxLife.rest_leads hd
  | some x =>
    obtain ⟨signals', hkill⟩ := SandboxLife.kill_leads hd
    obtain ⟨signals'', hrest⟩ := SandboxLife.rest_leads (s := { s with
      destroyer := some ⟨none, rest, signals', false⟩ }) rfl
    exact ⟨signals'', hkill.trans hrest⟩

theorem SandboxLife.recv_leads (ho : s.ended = false) (hm : 0 < s.messages) :
    ∃ t, sandboxLife.Leads s t ∧ t.ended = true := by
  have hrecv : sandboxLife.step s .recv =
      some { s with messages := s.messages - 1, ended := true } := if_pos ⟨ho, hm⟩
  exact ⟨_, .single hrecv, rfl⟩

theorem SandboxLife.Sound.end_leads {d : Destroyer} (hs : s.Sound) (hd : s.destroyer = some d)
    (hk : d.stuck = false) (hn : s.destroyed = []) :
    ∃ t, sandboxLife.Leads s t ∧ t.ended = true := by
  obtain ⟨signals, hlead⟩ := SandboxLife.destroyer_leads hd hk
  cases hs.sent with
  | once _ _ hdest => cases hn.symm.trans hdest
  | unsent hsender hm ho =>
    have hsend : sandboxLife.step { s with destroyer := some ⟨none, [], signals, false⟩ } .send =
        some { s with
          destroyer := none
          sender := false
          messages := s.messages + 1
          destroyed := s.destroyed ++ [⟨s.agent.runtime, signals⟩] } := if_pos hsender
    obtain ⟨t, ht, hended⟩ := SandboxLife.recv_leads (s := { s with
      destroyer := none
      sender := false
      messages := s.messages + 1
      destroyed := s.destroyed ++ [⟨s.agent.runtime, signals⟩] }) ho (Nat.succ_pos _)
    exact ⟨t, hlead.trans (.head hsend ht), hended⟩

/-- A container whose process has ended makes the agent one that `main` never leaves. -/
def onePoisoned : List SandboxAction :=
  firstCreate.map (fun a => .base (.base a)) ++
    [.base (.base (.exit 0 (.exited 0))), .base (.base (.reap 0)),
      .destroySandbox [("c1", [10])], .enter true, .esrch]

end KataAgent
