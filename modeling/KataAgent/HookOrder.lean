import KataAgent.SyncCompletion

namespace KataAgent
open Fallible Transition
set_option autoImplicit true

/-- The start of a container, which is that of its init process. -/
structure InitStart where
  run : SyncRun
  init : run.args.p.init = true
  process : run.args.process.isSome = true

def InitStart.pid (r : InitStart) : Party → Int
  | .second => r.run.secondPid
  | _ => r.run.firstPid

def InitStart.poststop (r : InitStart) : List Hook :=
  (r.run.args.hooks.map Hooks.poststop).getD []

inductive StopInstr where
  | kill (pid : Int)
  | hook (h : Hook)
  deriving DecidableEq

/-- `destroy`, from its loop over the processes on. -/
def InitStart.destroy (r : InitStart) (processes : List Int) : List StopInstr :=
  processes.map .kill ++ r.poststop.map .hook

/-- One container, from its create on. -/
structure Lifecycle where
  sync : SyncState
  /-- What the container process does after its last word to the agent. -/
  rest : List Instr
  creating : Bool
  /-- The sandbox has the container. -/
  registered : Bool
  fifoOpen : Bool
  /-- `StartContainer` has written to the exec fifo. -/
  released : Bool
  /-- What a removal has still to do in `destroy`. -/
  removing : Option (List StopInstr)
  /-- The pids in `processes`. -/
  processes : List Int
  /-- The processes of the container that have not exited. -/
  alive : Finset Int

inductive LifecycleAction where
  /-- The next instruction of the create, in the agent. -/
  | agent
  | createFails
  | created
  | child (p : Party)
  /-- The next instruction of the container process after its last word. -/
  | container
  | fork (pid child : Int)
  | exit (pid : Int)
  | startContainer (written : Bool)
  | execProcess (pid : Int) (recorded : Bool)
  | waitProcess (pid : Int)
  | removeContainer
  /-- The next instruction of `destroy`. -/
  | stop (fails : Bool)
  | removed (released : Bool)

def waitsAtFifo : List Instr → Bool
  | .call .openFifo :: _ => true
  | _ => false

/-- The processes after the next instruction of a child. -/
def Lifecycle.aliveAfter (r : InitStart) (s : Lifecycle) (p : Party) : Finset Int :=
  match s.sync.program p with
  | .fork :: _ => insert r.run.secondPid s.alive
  | .exit _ :: _ => s.alive.erase (r.pid p)
  | _ => s.alive

/-- The container process is through with `join_namespaces` and what follows it. -/
def Lifecycle.settled (r : InitStart) (s : Lifecycle) : Bool :=
  (s.sync.program r.run.container).isEmpty

/-- The open of the fifo waits for a writer, and the read for what it writes. -/
def Lifecycle.runContainer (s : Lifecycle) : Option Lifecycle :=
  match s.rest with
  | .call .openFifo :: rest => if s.fifoOpen then some { s with rest := rest } else none
  | .call .readFifo :: rest => if s.released then some { s with rest := rest } else none
  | .call _ :: rest => some { s with rest := rest }
  | .exec _ _ :: rest => some { s with rest := rest }
  | _ => none

/-- The requests take turns by the sandbox mutex, and the processes go on meanwhile. -/
def Lifecycle.step (r : InitStart) (s : Lifecycle) : LifecycleAction → Option Lifecycle
  | .agent =>
    if s.creating then (s.sync.step .agent).map fun t => { s with sync := t } else none
  | .createFails => if s.creating then some { s with creating := false } else none
  | .created =>
    if s.creating ∧ s.sync.agent.isEmpty then
      some { s with creating := false, registered := true, processes := [s.sync.pid] }
    else none
  | .child p =>
    if p ≠ .agent ∧ r.pid p ∈ s.alive then
      (s.sync.step p).map fun t => { s with sync := t, alive := s.aliveAfter r p }
    else none
  | .container =>
    if s.settled r ∧ r.pid r.run.container ∈ s.alive then s.runContainer else none
  | .fork pid child =>
    if pid ∈ s.alive then some { s with alive := insert child s.alive } else none
  | .exit pid => if pid ∈ s.alive then some { s with alive := s.alive.erase pid } else none
  | .startContainer written =>
    if s.registered ∧ s.removing.isNone ∧ s.settled r ∧ waitsAtFifo s.rest then
      some { s with fifoOpen := true, released := s.released || written }
    else none
  | .execProcess pid recorded =>
    if s.registered ∧ s.removing.isNone then
      some { s with
        alive := insert pid s.alive
        processes := if recorded then s.processes.insert pid else s.processes }
    else none
  | .waitProcess pid =>
    if s.removing.isNone then some { s with processes := s.processes.erase pid } else none
  | .removeContainer =>
    if s.registered ∧ s.removing.isNone then
      some { s with removing := some (r.destroy s.processes) }
    else none
  | .stop fails =>
    match s.removing with
    | some (_ :: rest) => some { s with removing := if fails then none else some rest }
    | _ => none
  | .removed released =>
    if s.removing = some [] then some { s with removing := none, registered := !released }
    else none

def InitStart.start (r : InitStart) : Lifecycle where
  sync := r.run.start
  rest := startExec r.run.args
  creating := true
  registered := false
  fifoOpen := false
  released := false
  removing := none
  processes := []
  alive := {r.run.firstPid}

def InitStart.lifecycle (r : InitStart) : System Lifecycle LifecycleAction where
  init s := s = r.start
  step := Lifecycle.step r

/-- The next hook of the create is no poststart hook, unless the container is released. -/
def Lifecycle.PoststartInOrder (s : Lifecycle) : Prop :=
  ∀ h rest, s.sync.agent = .hook .poststart h :: rest → s.released = true

/-- The order that the comments on `Hooks` promise, at one step; a hook may also fail. -/
def Lifecycle.InOrder (s : Lifecycle) : LifecycleAction → Prop
  | .agent => s.PoststartInOrder
  | .createFails => s.PoststartInOrder
  | .container => ∀ args env rest, s.rest = .exec args env :: rest →
      ∀ h, .hook .prestart h ∉ s.sync.agent
  | .stop _ => ∀ h rest, s.removing = some (.hook h :: rest) → s.alive = ∅
  | _ => True

/-- A removal that has poststop hooks to run finds no process of the container. -/
def Outlived (r : InitStart) (s : Lifecycle) : LifecycleAction → Prop
  | .removeContainer => r.poststop = [] ∨ s.alive = ∅
  | _ => True

instance : Decidable (Outlived r s a) := by
  cases a <;> unfold Outlived <;> infer_instance

variable {r : InitStart} {s t : Lifecycle}

structure Lifecycle.Kept (r : InitStart) (s : Lifecycle) : Prop where
  sync : r.run.system.Reachable s.sync
  gone : ∀ l h, s.removing = some l → .hook h ∈ l → s.alive = ∅

theorem InitStart.hook_mem_destroy (h : .hook hk ∈ r.destroy processes) : hk ∈ r.poststop := by
  rcases List.mem_append.1 h with h | h
  · obtain ⟨pid, -, he⟩ := List.mem_map.1 h
    cases he
  · obtain ⟨x, hx, he⟩ := List.mem_map.1 h
    cases he
    exact hx

theorem Lifecycle.runContainer_cases (h : s.runContainer = some t) :
    ∃ rest, t = { s with rest := rest } := by
  rw [Lifecycle.runContainer] at h
  split at h
  · exact ⟨_, (Option.some.inj (Option.ite_none_right_eq_some.1 h).2).symm⟩
  · exact ⟨_, (Option.some.inj (Option.ite_none_right_eq_some.1 h).2).symm⟩
  · exact ⟨_, (Option.some.inj h).symm⟩
  · exact ⟨_, (Option.some.inj h).symm⟩
  · cases h

theorem Lifecycle.aliveAfter_empty (h : s.alive = ∅) (hp : r.pid p ∈ s.alive) :
    s.aliveAfter r p = ∅ := by
  rw [h] at hp
  cases hp

theorem Lifecycle.Kept.step (h : s.Kept r) (hc : Outlived r s a)
    (hst : r.lifecycle.step s a = some t) : t.Kept r := by
  cases a with
  | agent =>
    obtain ⟨-, hst⟩ := Option.ite_none_right_eq_some.1 hst
    obtain ⟨u, hu, rfl⟩ := Option.map_eq_some_iff.1 hst
    have hu' : r.run.system.step s.sync .agent = some u := hu
    exact ⟨.step h.sync trivial hu', h.gone⟩
  | createFails =>
    obtain ⟨-, rfl⟩ := Option.ite_some_none_eq_some.1 hst
    exact ⟨h.sync, h.gone⟩
  | created =>
    obtain ⟨-, rfl⟩ := Option.ite_some_none_eq_some.1 hst
    exact ⟨h.sync, h.gone⟩
  | child p =>
    obtain ⟨⟨-, hp⟩, hst⟩ := Option.ite_none_right_eq_some.1 hst
    obtain ⟨u, hu, rfl⟩ := Option.map_eq_some_iff.1 hst
    have hu' : r.run.system.step s.sync p = some u := hu
    exact ⟨.step h.sync trivial hu', fun l hk hl hm => aliveAfter_empty (h.gone l hk hl hm) hp⟩
  | container =>
    obtain ⟨-, hst⟩ := Option.ite_none_right_eq_some.1 hst
    obtain ⟨rest, rfl⟩ := Lifecycle.runContainer_cases hst
    exact ⟨h.sync, h.gone⟩
  | fork pid child =>
    obtain ⟨hp, rfl⟩ := Option.ite_some_none_eq_some.1 hst
    refine ⟨h.sync, fun l hk hl hm => ?_⟩
    rw [h.gone l hk hl hm] at hp
    cases hp
  | exit pid =>
    obtain ⟨hp, rfl⟩ := Option.ite_some_none_eq_some.1 hst
    refine ⟨h.sync, fun l hk hl hm => ?_⟩
    rw [h.gone l hk hl hm] at hp
    cases hp
  | startContainer written =>
    obtain ⟨-, rfl⟩ := Option.ite_some_none_eq_some.1 hst
    exact ⟨h.sync, h.gone⟩
  | execProcess pid recorded =>
    obtain ⟨⟨-, hr⟩, rfl⟩ := Option.ite_some_none_eq_some.1 hst
    refine ⟨h.sync, fun l hk hl _ => ?_⟩
    rw [show s.removing = some l from hl] at hr
    cases hr
  | waitProcess pid =>
    obtain ⟨-, rfl⟩ := Option.ite_some_none_eq_some.1 hst
    exact ⟨h.sync, h.gone⟩
  | removeContainer =>
    obtain ⟨-, rfl⟩ := Option.ite_some_none_eq_some.1 hst
    refine ⟨h.sync, fun l hk hl hm => ?_⟩
    cases hl
    rcases hc with hc | hc
    · have hmem := InitStart.hook_mem_destroy hm
      rw [hc] at hmem
      cases hmem
    · exact hc
  | stop fails =>
    simp only [InitStart.lifecycle, Lifecycle.step] at hst
    split at hst
    · rename_i i rest hr
      obtain rfl := Option.some.inj hst
      refine ⟨h.sync, fun l hk hl hm => ?_⟩
      cases fails with
      | true => cases hl
      | false =>
        cases hl
        exact h.gone _ hk hr (List.mem_cons_of_mem i hm)
    · cases hst
  | removed released =>
    obtain ⟨-, rfl⟩ := Option.ite_some_none_eq_some.1 hst
    exact ⟨h.sync, fun l hk hl => by cases hl⟩

theorem Lifecycle.kept_of_reach (h : r.lifecycle.Reach (Outlived r) s) : s.Kept r := by
  apply h.invariant
  · rintro s rfl
    exact ⟨.init rfl, fun l hk hl => by cases hl⟩
  · exact fun s a t hs hc hst => hs.step hc hst

theorem SyncRun.poststart_of_mem {r : SyncRun} (h : .hook .poststart hk ∈ r.agentProgram) :
    ∃ hooks ∈ r.args.hooks, hk ∈ hooks.poststart := by
  have hm := mem_ranked h rfl
  rw [ranked_agentProgram] at hm
  have hpre : .hook .poststart hk ∉ Hooks.run r.args.hooks .prestart := by
    intro hm
    obtain ⟨x, hx⟩ := mem_hooks hm
    cases hx
  have hpost : .hook .poststart hk ∈ Hooks.run r.args.hooks .poststart := by
    by_cases hi : r.args.p.init
    · simpa [onlyIf, writeSync, hi, hpre] using hm
    · simp [onlyIf, writeSync, hi] at hm
  cases hh : r.args.hooks with
  | none =>
    rw [hh] at hpost
    cases hpost
  | some hooks =>
    rw [hh] at hpost
    obtain ⟨x, hx, he⟩ := List.mem_map.1 hpost
    cases he
    exact ⟨hooks, rfl, hx⟩

/-- Without poststart hooks, and as long as removals with poststop hooks wait for the processes,
all hooks come in their order. -/
theorem Lifecycle.hooks_inOrder (hpost : ∀ hooks ∈ r.run.args.hooks, hooks.poststart = [])
    (h : r.lifecycle.Reach (Outlived r) s) (hst : r.lifecycle.step s a = some t) : s.InOrder a := by
  have hk := Lifecycle.kept_of_reach h
  obtain ⟨p, hp⟩ := Option.isSome_iff_exists.1 r.process
  have hstart : s.PoststartInOrder := by
    intro hk' rest hprog
    have hmem := (SyncRun.sound_of_reach hp hk.sync).agent.subset
      (by rw [hprog]; exact List.mem_cons_self)
    obtain ⟨hooks, hh, hm⟩ := SyncRun.poststart_of_mem hmem
    rw [hpost hooks hh] at hm
    cases hm
  cases a with
  | agent => exact hstart
  | createFails => exact hstart
  | container =>
    obtain ⟨⟨hset, -⟩, -⟩ := Option.ite_none_right_eq_some.1 hst
    intro args env rest _
    apply (joinNamespaces_synchronised r.run hp hk.sync).prestart r.init
    rw [List.isEmpty_iff.1 hset]
    exact List.not_mem_nil
  | stop fails => exact fun hk' rest hr => hk.gone _ hk' hr List.mem_cons_self
  | _ => trivial

/-- While the create runs, no other request gets to the container. -/
theorem Lifecycle.creating_untouched (h : r.lifecycle.Reachable s) (hc : s.creating = true) :
    s.registered = false ∧ s.released = false ∧ s.removing = none := by
  revert hc
  apply h.invariant
  · rintro s rfl _
    exact ⟨rfl, rfl, rfl⟩
  intro s a t hs _ hst hc
  cases a with
  | agent =>
    obtain ⟨-, hst⟩ := Option.ite_none_right_eq_some.1 hst
    obtain ⟨u, -, rfl⟩ := Option.map_eq_some_iff.1 hst
    exact hs hc
  | createFails =>
    obtain ⟨-, rfl⟩ := Option.ite_some_none_eq_some.1 hst
    cases hc
  | created =>
    obtain ⟨-, rfl⟩ := Option.ite_some_none_eq_some.1 hst
    cases hc
  | child p =>
    obtain ⟨-, hst⟩ := Option.ite_none_right_eq_some.1 hst
    obtain ⟨u, -, rfl⟩ := Option.map_eq_some_iff.1 hst
    exact hs hc
  | container =>
    obtain ⟨-, hst⟩ := Option.ite_none_right_eq_some.1 hst
    obtain ⟨rest, rfl⟩ := Lifecycle.runContainer_cases hst
    exact hs hc
  | startContainer written =>
    obtain ⟨⟨hreg, -⟩, rfl⟩ := Option.ite_some_none_eq_some.1 hst
    rw [(hs hc).1] at hreg
    cases hreg
  | removeContainer =>
    obtain ⟨⟨hreg, -⟩, rfl⟩ := Option.ite_some_none_eq_some.1 hst
    rw [(hs hc).1] at hreg
    cases hreg
  | stop fails =>
    simp only [InitStart.lifecycle, Lifecycle.step] at hst
    split at hst
    · rename_i hr
      obtain rfl := Option.some.inj hst
      rw [(hs hc).2.2] at hr
      cases hr
    · cases hst
  | removed released =>
    obtain ⟨hr, rfl⟩ := Option.ite_some_none_eq_some.1 hst
    rw [(hs hc).2.2] at hr
    cases hr
  | _ =>
    obtain ⟨-, rfl⟩ := Option.ite_some_none_eq_some.1 hst
    exact hs hc

/-- Whatever the spec, a poststart hook is run before the container is released. -/
theorem Lifecycle.poststart_early (h : r.lifecycle.Reachable s)
    (hst : r.lifecycle.step s .agent = some t) (hprog : s.sync.agent = .hook .poststart hk :: is) :
    ¬ s.InOrder .agent := by
  intro ho
  obtain ⟨hc, -⟩ := Option.ite_none_right_eq_some.1 hst
  have hreleased := (Lifecycle.creating_untouched h hc).2.1
  rw [ho hk is hprog] at hreleased
  cases hreleased

theorem Instr.eq_poststart {i : Instr} (h : i.rank = some 10) : ∃ hk, i = .hook .poststart hk := by
  cases i with
  | hook kind hk =>
    cases kind with
    | prestart => cases h
    | poststart => exact ⟨hk, rfl⟩
  | read c token =>
    cases token <;> cases h
  | write c w =>
    rcases w with ⟨token, value⟩
    cases token <;> cases h
  | _ => cases h

/-- A process without namespaces of its own. -/
def hookedProcess (hooks : Hooks) : InitStart where
  run := {
    args := {
      p := ⟨"", 10, 13, 15, 11, 12, 14, none, true, podProcess⟩
      process := some podProcess
      root := ⟨"/run/rootfs", false⟩
      hostname := "pod"
      hooks := some hooks
      linux := ⟨[], [], [], none, [], []⟩
      toNew := ∅
      toJoin := []
      pidns := false
      userns := false
      noPivot := false
      fifofd := 9
      master := 20
      slave := 21 }
    firstPid := 100
    secondPid := 101 }
  init := rfl
  process := rfl

def shellHook (path : String) : Hook := ⟨path, [], [], 0⟩

/-- The create up to the words around its prestart hooks, of which there are `n`. -/
def createTo (n : Nat) : List LifecycleAction := List.flatten
  [List.replicate 3 (.child .first), List.replicate 4 .agent, List.replicate 7 (.child .first),
    List.replicate (n + 2) .agent, List.replicate 13 (.child .first)]

/-- The container is created and started, exits, and is removed as far as its poststop hook. -/
def orderlyLife : List LifecycleAction := List.flatten
  [createTo 1, List.replicate 3 .agent, [.created, .startContainer true],
    List.replicate 4 .container, [.exit 100, .waitProcess 100, .removeContainer]]

def orderlyProcess : InitStart :=
  hookedProcess ⟨[shellHook "/bin/pre"], [], [shellHook "/bin/stop"]⟩

theorem Lifecycle.hooks_inOrder_orderlyLife : ∃ s,
    orderlyProcess.lifecycle.runIf (Outlived orderlyProcess) orderlyProcess.start orderlyLife =
      some s ∧ s.removing = some [.hook (shellHook "/bin/stop")] ∧ s.InOrder (.stop false) := by
  have hr : (orderlyProcess.lifecycle.runIf (Outlived orderlyProcess) orderlyProcess.start
      orderlyLife).map Lifecycle.removing = some (some [.hook (shellHook "/bin/stop")]) := by
    decide
  obtain ⟨s, hs, hrem⟩ := Option.map_eq_some_iff.1 hr
  have hst : orderlyProcess.lifecycle.step s (.stop false) =
      some { s with removing := some [] } := by
    simp [InitStart.lifecycle, Lifecycle.step, hrem]
  refine ⟨s, hs, hrem, ?_⟩
  exact Lifecycle.hooks_inOrder (by decide) (System.Reach.runIf (.init rfl) hs) hst

theorem Lifecycle.hooks_early : ¬ ∀ r s a t, (InitStart.lifecycle r).Reachable s →
    r.lifecycle.step s a = some t → s.InOrder a := by
  intro h
  let r := hookedProcess ⟨[], [shellHook "/bin/post"], []⟩
  have hr : ((r.lifecycle.run r.start (createTo 0 ++ [.agent])).bind fun s =>
      (r.lifecycle.step s .agent).map fun _ => s.sync.agent.head?.map Instr.rank) =
        some (some (some 10)) := by
    decide
  obtain ⟨s, hs, hr⟩ := Option.bind_eq_some_iff.1 hr
  obtain ⟨t, ht, hr⟩ := Option.map_eq_some_iff.1 hr
  obtain ⟨i, hi, hr⟩ := Option.map_eq_some_iff.1 hr
  obtain ⟨hk, rfl⟩ := Instr.eq_poststart hr
  obtain ⟨rest, hprog⟩ := List.head?_eq_some_iff.1 hi
  have hreach := System.reachable_of_run (M := r.lifecycle) (s := r.start) rfl hs
  exact Lifecycle.poststart_early hreach ht hprog (h r s .agent t hreach ht)

end KataAgent
