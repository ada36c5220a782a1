import KataAgent.ChildPhases
import KataAgent.ExitReaping

namespace KataAgent
open Transition
set_option autoImplicit true

/-- What the child's end reports. -/
def ChildPhase.status : ChildPhase → Option WaitStatus
  | .running => none
  | .zombie status => some status
  | .reaped status => some status
  | .handled status => some status
  | .lost status => some status

/-- The reaper gets the statuses that nix knows, and no others. -/
def ChildPhase.Sifted : ChildPhase → Prop
  | .reaped status => status.known = true
  | .handled status => status.known = true
  | .lost status => status.known = false
  | _ => True

variable {s t : Runtime} {e : ProcessRecord}

theorem ChildPhase.Moves.sifted {p q : ChildPhase} (h : p.Moves k a q) (hp : p.Sifted) :
    q.Sifted := by
  cases h with
  | exit => trivial
  | reap hv => exact hv
  | lose hv => exact hv
  | record => exact hp

def Runtime.Sifted (s : Runtime) : Prop :=
  ∀ k c, s.children.lookup k = some c → c.phase.Sifted

theorem Runtime.Sifted.of_reachable (h : processRuntime.Reachable s) : s.Sifted := by
  have hs : processRuntime.Reachable s ∧ s.Sifted := by
    apply h.invariant (I := fun s => processRuntime.Reachable s ∧ s.Sifted)
    · intro s h0
      refine ⟨.init h0, ?_⟩
      obtain ⟨files, -, rfl⟩ := h0
      intro k c hk
      cases hk
    · intro s a t hs _ hst
      refine ⟨.step hs.1 trivial hst, ?_⟩
      apply ((Runtime.Started.of_reachable hs.1).childEffect hst).forall_children hs.2
      · intro c hc
        rw [hc]
        trivial
      · exact fun k c phase _ hm hc => hm.sifted hc
  exact hs.2

/-- No process of a start is killed by a signal that nix does not know. -/
def Runtime.SignalKnown (s : Runtime) : RuntimeAction → Prop
  | .exit k status => ∀ c ∈ s.children.lookup k, c.startedFor ≠ none → status.known = true
  | _ => True

instance : Decidable (Runtime.SignalKnown s a) :=
  match a with
  | .exit .. => inferInstanceAs (Decidable (∀ _ ∈ _, _ ≠ _ → _ = _))
  | .spawn .. | .exec .. | .reap .. | .record .. | .begin .. | .start .. | .abandon .. | .hang
  | .waitLookup .. | .waitRead .. | .waitFinish .. | .readPick .. | .readReturn .. | .closeStdin ..
  | .removeContainer .. | .destroyContainer .. | .removeDestroyed .. | .hangDestroy ..
  | .createSandbox .. | .openOther .. | .closeOther .. => isTrue trivial

/-- A process of a start ended in a way that nix knows, if it ended. -/
def Runtime.Heard (s : Runtime) : Prop :=
  ∀ k c, s.children.lookup k = some c →
    c.startedFor ≠ none → ∀ status, c.phase.status = some status → status.known = true

theorem Runtime.Heard.step (hs : s.Heard) (hS : s.Started) (hc : s.SignalKnown a)
    (h : s.step a = some t) : t.Heard := by
  apply (hS.childEffect h).forall_children hs
  · intro c hp _ status hst
    rw [hp] at hst
    cases hst
  · intro k c phase hk hm hold hne status hst
    generalize hp : c.phase = p at hm
    cases hm with
    | exit =>
      cases hst
      exact hc c hk hne
    | _ =>
      cases hst
      exact hold hne status (by rw [hp]; rfl)

/-- The status of a process that is in a container, once the reaper is through with it, is in its
record exactly if nix knows it; otherwise the exit pipe stays open. -/
theorem Runtime.Sound.recorded_iff (hS : s.Sound) (hs : s.Sifted) (he : s.entry c p = some e)
    (hF : s.Finished e.owner status) : (e.exitCode = status.code ∧
      ∀ fd, s.files.lookup fd ≠ some (.start e.owner .exitPipeW)) ↔ status.known = true := by
  obtain ⟨ch, hch, hph⟩ := hF
  have hsift := hs _ ch hch
  rcases hph with hph | hph
  · rw [hph] at hsift
    refine iff_of_true ?_ hsift
    obtain ⟨hcode, hclosed⟩ := hS.tracked.recorded he ⟨ch, hch, hph⟩
    exact ⟨hcode, fun fd hf => hS.held.tag_open hf hclosed⟩
  · rw [hph] at hsift
    refine iff_of_false (fun h => ?_) (Bool.eq_false_iff.1 hsift)
    have hx := hS.held.entry he
    obtain ⟨w, hw⟩ := Option.ne_none_iff_exists'.1 hx.exitW
    have hopen : (e.owner, .exitPipeW) ∉ s.closed := by
      intro hclosed
      obtain ⟨st, d, hd, hpd⟩ := hS.tracked.shut hclosed
      cases hch.symm.trans hd
      cases hph.symm.trans hpd
    have hfile : s.files.lookup w = some (.start e.owner .exitPipeW) := hx.fd_file hw hopen
    exact h.2 w hfile

/-- The reaper has written the status of every registered process that it is through with, and
closed its pipe; a call that is past its read finds the status. -/
structure Runtime.ExitsRecorded (s : Runtime) : Prop where
  registered : ∀ c p e status, s.entry c p = some e → s.Finished e.owner status →
    e.exitCode = status.code ∧ ∀ fd, s.files.lookup fd ≠ some (.start e.owner .exitPipeW)
  awaited : ∀ i w e, s.waits.lookup i = some w → w.phase = .finishing →
    s.entry w.containerId w.pid = some e →
      e.owner = w.found ∧ ∃ status, s.Finished w.found status ∧ e.exitCode = status.code

/-- The owner of a record is the child of a start. -/
theorem Runtime.Started.entry_startedFor (hs : s.Started) (he : s.entry c p = some e) :
    ∃ ch, s.children.lookup e.owner = some ch ∧ ch.startedFor ≠ none := by
  obtain ⟨ch, hch, -, hn⟩ := hs.entry he
  refine ⟨ch, hch, fun h => ?_⟩
  rw [h] at hn
  cases hn

/-- No exit is dropped, also when the process ends before it is registered. -/
theorem Runtime.exits_recorded
    (h : processRuntime.Reach (fun s a => s.PidsSpared a ∧ s.SignalKnown a) s) :
    s.ExitsRecorded := by
  have hinv : s.Sound ∧ s.DistinctPids ∧ s.Heard := by
    apply h.invariant (I := fun s => s.Sound ∧ s.DistinctPids ∧ s.Heard)
    · intro s h0
      refine ⟨.boot h0, .boot h0, ?_⟩
      obtain ⟨files, -, rfl⟩ := h0
      intro k c hk
      cases hk
    · intro s a t hs hc hst
      obtain ⟨hS, hd, hh⟩ := hs
      exact ⟨hS.step hd hst, hd.step hS.started hc.1 hst, hh.step hS.started hc.2 hst⟩
  obtain ⟨hS, hd, hh⟩ := hinv
  have hs := Runtime.Sifted.of_reachable h.reachable
  constructor
  · intro c p e status he hF
    apply (hS.recorded_iff hs he hF).2
    obtain ⟨ch, hch, hne⟩ := hS.started.entry_startedFor he
    obtain ⟨d, hd', hph⟩ := hF
    cases hch.symm.trans hd'
    apply hh _ ch hch hne
    rcases hph with hph | hph
    · rw [hph]
      rfl
    · rw [hph]
      rfl
  · intro i w e hw hp he
    have ho := hd.found_eq hS.started hw (by rw [hp]; trivial) he
    obtain ⟨status, hE⟩ := hS.tracked.shut (hS.tracked.passed hw hp he ho)
    exact ⟨ho, status, hE.finished, (hS.tracked.recorded he (ho ▸ hE)).1⟩

/-- The process ends, and is reaped, while `start` still holds the mutex. -/
def earlyExit : List RuntimeAction :=
  createRun "c1" [0, 1, 2, 3, 4, 5, 0, 6, 7, 8, 9, 10, 10, 0] ++ [.exit 0 (.exited 7), .reap 0] ++
    [0, 0, 0, 0, 0, 0, 0, 0, 3, 0].map .start ++
    [.waitLookup 0 "c1" "init" 10, .record "c1", .waitRead 0]

theorem Runtime.exits_recorded_earlyExit : ∃ s : Runtime,
    (s.waits.lookup 0).map WaitCall.phase = some .finishing ∧ s.ExitsRecorded := by
  have hr : (processRuntime.runIf (fun s a => s.NewPids a ∧ s.SignalKnown a) (.boot ∅)
      earlyExit).map (fun s => (s.waits.lookup 0).map WaitCall.phase) =
        some (some .finishing) := by decide
  obtain ⟨s, hs, hp⟩ := Option.map_eq_some_iff.1 hr
  have hreach := (System.Reach.init Runtime.boot_init).runIf hs
  exact ⟨s, hp, Runtime.exits_recorded (hreach.mono fun _ _ h => ⟨h.1.spared, h.2⟩)⟩

/-- The process is killed by the first real-time signal that the C library leaves free. -/
def realTimeKill : List RuntimeAction :=
  firstCreate ++ [.waitLookup 0 "c1" "init" 10, .exit 0 (.signaled 34), .reap 0]

/-- Also when no two children ever have the same pid. -/
theorem Runtime.exits_lost : ¬ ∀ s, processRuntime.Reachable s →
    (∀ k l c d, s.children.lookup k = some c → s.children.lookup l = some d → c.pid = d.pid →
      k = l) → s.ExitsRecorded := by
  intro h
  have hr : (processRuntime.run (.boot ∅) realTimeKill).map (fun s =>
      ((s.entry "c1" 10).map fun e => (e.owner, e.exitCode), s.children.lookup 0,
        s.children.keys)) =
      some (some (0, 0), some ⟨10, .lost (.signaled 34),
        some ⟨"c1", "init", true, false, 0, 0⟩⟩, {0}) := by decide
  obtain ⟨s, hs, hp⟩ := Option.map_eq_some_iff.1 hr
  obtain ⟨hentry, hp⟩ := Prod.mk.inj hp
  obtain ⟨hchild, hkeys⟩ := Prod.mk.inj hp
  obtain ⟨e, he, hx⟩ := Option.map_eq_some_iff.1 hentry
  obtain ⟨ho, hcode⟩ := Prod.mk.inj hx
  have hone : ∀ k c, s.children.lookup k = some c → k = 0 := by
    intro k c hk
    have hm : k ∈ s.children.keys := Table.mem_keys_iff.2 ⟨c, hk⟩
    rw [hkeys] at hm
    exact Finset.mem_singleton.1 hm
  have hF : s.Finished e.owner (.signaled 34) := ⟨_, ho ▸ hchild, .inr rfl⟩
  have hrec := h s (System.reachable_of_run Runtime.boot_init hs) fun k l c d hk hl _ =>
    (hone k c hk).trans (hone l d hl).symm
  have hbad := (hrec.registered _ _ e _ he hF).1
  rw [hcode] at hbad
  cases hbad

end KataAgent
