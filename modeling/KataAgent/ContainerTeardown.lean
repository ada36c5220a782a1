import KataAgent.ExecIds
import KataAgent.RemovalVariants

namespace KataAgent
open Fallible Transition
set_option autoImplicit true

/-- A container object and the processes that took a SIGKILL from it. -/
structure Teardown extends Jail where
  killed : List Int
  deriving DecidableEq

def Teardown.onJail (x : Act Jail ErrorKind α) : Act Teardown ErrorKind α := fun t =>
  let r := x t.toJail
  (r.1, { t with toJail := r.2 })

/-- `signal::kill(Pid::from_raw(*pid), Some(Signal::SIGKILL))?`. -/
def Teardown.kill (answer : Int → Option Errno) (pid : Int) : Act Teardown ErrorKind Unit := do
  Act.lift (syscall (answer pid))
  Act.modify fun t => { t with killed := t.killed ++ [pid] }

def Teardown.killAll (answer : Int → Option Errno) : List Int → Act Teardown ErrorKind Unit
  | [] => pure ()
  | pid :: pids => do
    Teardown.kill answer pid
    Teardown.killAll answer pids

/-- `LinuxContainer::destroy`, with its signals. -/
def Teardown.destroy (g : DestroyGuest) : Act Teardown ErrorKind Unit := do
  let ctr ← Act.read fun t : Teardown => t.ctr
  let st ← Act.lift (ctr.ociState g.bundlePath)
  Teardown.killAll g.kill ctr.processes
  Teardown.onJail (runHooks .poststop st ctr.initProcessPid g.poststop (ctr.hooks .poststop))
  Teardown.onJail (Act.modify (Jail.setStatus "stopped"))

/-- What needs no mutex can happen while `destroy` holds it. -/
def RuntimeAction.unlocked : RuntimeAction → Bool
  | .spawn _ _ => true
  | .exec _ => true
  | .exit _ _ => true
  | .reap _ => true
  | .waitRead _ => true
  | .readReturn _ _ => true
  | .openOther _ => true
  | .closeOther _ => true
  | _ => false

def Runtime.Meanwhile (s t : Runtime) : Prop :=
  ∃ l : List RuntimeAction, (∀ a ∈ l, a.unlocked = true) ∧ processRuntime.run s l = some t

/-- A signal finds a process until that one is reaped, and then whichever one got its pid;
`others` are the processes of the guest that are not children of the agent. -/
def Runtime.killAnswer (s : Runtime) (others : Finset Pid) (pid : Pid) : Option Errno :=
  if s.pidTaken pid ∨ pid ∈ others then none else some ESRCH

/-- A call of `destroy` for a container with registered processes. -/
structure Runtime.Destroying (s : Runtime) (cid : String) where
  processes : Table Pid ProcessRecord
  jail : Jail
  /-- The run over the map. -/
  order : List Pid
  /-- The state in which the signal of each process is due. -/
  due : Pid → Runtime
  others : Finset Pid
  guest : DestroyGuest
  found : s.containers.lookup cid = some processes
  nodup : order.Nodup
  mem_order : ∀ p, p ∈ order ↔ p ∈ processes.keys
  object : jail.ctr.processes = order.map fun p : Pid => (p : Int)
  meanwhile : ∀ p ∈ order, s.Meanwhile (due p)
  answers : ∀ p ∈ order, guest.kill p = (due p).killAnswer others p
  hooks : ∀ n < (jail.ctr.hooks .poststop).length,
    (guest.poststop n).refused = none ∧ (guest.poststop n).failed = none

variable {s t : Runtime} {cid : String} {d : s.Destroying cid}

/-- The object and the signals after the call. -/
def Runtime.Destroying.after (d : s.Destroying cid) : Teardown :=
  (Teardown.destroy d.guest ⟨d.jail, []⟩).2

structure Runtime.Destroying.Complete (d : s.Destroying cid) : Prop where
  /-- Every registered process that runs when its signal is due gets it. -/
  killed : ∀ p e c, d.processes.lookup p = some e →
    (d.due p).children.lookup e.owner = some c → c.phase = .running → (c.pid : Int) ∈ d.after.killed
  hooksRun : ∃ ran, d.after.hooksRun = d.jail.hooksRun ++ ran ∧
    ran.map (fun r => (r.point, r.hook)) =
      (d.jail.ctr.hooks .poststop).map fun h => (.poststop, h)
  stopped : d.after.statuses = d.jail.statuses ++ ["stopped"] ∧
    d.after.ctr.status = some "stopped"

theorem Teardown.onJail_shows (x : Act Jail ErrorKind α) :
    Act.Shows Teardown.toJail (Teardown.onJail x) x := fun _ => rfl

theorem Teardown.kill_apply (answer : Int → Option Errno) (pid : Int) (t : Teardown) :
    Teardown.kill answer pid t = match answer pid with
      | none => (.ok (), { t with killed := t.killed ++ [pid] })
      | some e => (.err (.nix e), t) := by
  rw [Teardown.kill]
  cases answer pid with
  | none => rfl
  | some e => rfl

theorem Teardown.killAll_shows (answer : Int → Option Errno) (pids : List Int) :
    Act.Shows Teardown.toJail (Teardown.killAll answer pids) (KataAgent.killAll answer pids) := by
  induction pids with
  | nil => exact fun _ => rfl
  | cons pid pids ih =>
    have hkill : Act.Shows Teardown.toJail (Teardown.kill answer pid)
        (Act.lift (syscall (answer pid))) := by
      intro t
      rw [Teardown.kill_apply]
      cases answer pid with
      | none => rfl
      | some e => rfl
    exact hkill.bind fun _ => ih

/-- Without the signals it is `destroy` of the container object. -/
theorem Teardown.destroy_shows (g : DestroyGuest) :
    Act.Shows Teardown.toJail (Teardown.destroy g) (Jail.destroy g) := by
  rw [Jail.destroy, stopAll]
  simp only [Act.bind_assoc]
  apply Act.Shows.bind (Act.Shows.read (π := Teardown.toJail) Jail.ctr)
  intro ctr
  apply Act.Shows.bind (.lift _)
  intro st
  apply Act.Shows.bind (Teardown.killAll_shows _ _)
  intro _
  exact (Teardown.onJail_shows _).bind fun _ => Teardown.onJail_shows _

theorem Teardown.killAll_of {answer : Int → Option Errno} {pids : List Int}
    (h : ∀ pid ∈ pids, answer pid = none) (t : Teardown) :
    Teardown.killAll answer pids t = (.ok (), { t with killed := t.killed ++ pids }) := by
  induction pids generalizing t with
  | nil => simp [Teardown.killAll]
  | cons pid pids ih =>
    obtain ⟨hpid, hpids⟩ := List.forall_mem_cons.1 h
    have hk := Teardown.kill_apply answer pid t
    rw [hpid] at hk
    rw [Teardown.killAll, Act.bind_ok hk, ih hpids, List.append_assoc, List.singleton_append]

/-- A `destroy` that meets no refusal. -/
theorem Teardown.destroy_of {g : DestroyGuest} {t : Teardown} (h : g.Obliges t.ctr) :
    ∃ st, Teardown.destroy g t = (.ok (), {
      toJail := Jail.setStatus "stopped" { t.toJail with
        hooksRun := t.hooksRun ++ (t.ctr.hooks .poststop).map fun hk =>
          ⟨.poststop, hk, st, t.ctr.initProcessPid⟩ }
      killed := t.killed ++ t.ctr.processes }) := by
  obtain ⟨st, hst⟩ := Outcome.isOk_iff.1 (DestroyGuest.completes_iff.2 h).1
  apply Exists.intro st
  rw [Teardown.destroy, Act.bind_ok (Act.read_apply _), hst, Act.bind_ok (Act.lift_apply _),
    Act.bind_ok (Teardown.killAll_of h.killed t)]
  have hrun : runHooks .poststop st t.ctr.initProcessPid g.poststop (t.ctr.hooks .poststop)
        t.toJail =
      (.ok (), { t.toJail with
        hooksRun := t.hooksRun ++ (t.ctr.hooks .poststop).map fun hk =>
          ⟨.poststop, hk, st, t.ctr.initProcessPid⟩ }) := runHooks_of h.hooks
  rw [Act.bind_ok (t := ⟨_, t.killed ++ t.ctr.processes⟩)]
  · rfl
  · rw [Teardown.onJail, hrun]

theorem Runtime.step_unlocked (ha : a.unlocked = true) (h : s.step a = some t) :
    t.containers = s.containers := by
  cases Runtime.step_effect h with
  | spawn => rfl
  | exec => rfl
  | exit => rfl
  | reap => rfl
  | lose => rfl
  | waitRead => rfl
  | readReturn => rfl
  | readFail => rfl
  | openOther => rfl
  | closeOther => rfl
  | unwind hl hu => rfl
  | _ => cases ha

theorem Runtime.Meanwhile.containers (h : s.Meanwhile t) : t.containers = s.containers := by
  obtain ⟨l, hl, hr⟩ := h
  induction l generalizing s with
  | nil =>
    cases hr
    rfl
  | cons a l ih =>
    obtain ⟨ha, hl⟩ := List.forall_mem_cons.1 hl
    obtain ⟨u, hu, hr⟩ := Option.bind_eq_some_iff.1 hr
    exact (ih hl hr).trans (Runtime.step_unlocked ha hu)

theorem Runtime.Meanwhile.reachable (h : s.Meanwhile t) (hs : processRuntime.Reachable s) :
    processRuntime.Reachable t := by
  obtain ⟨l, -, hr⟩ := h
  exact hs.extend (System.admits_true _ _ l) hr

theorem Runtime.killAnswer_eq_none {others : Finset Pid} {pid : Pid} :
    s.killAnswer others pid = none ↔ s.pidTaken pid ∨ pid ∈ others := by
  rw [Runtime.killAnswer]
  split
  · rename_i h
    exact iff_of_true rfl h
  · rename_i h
    exact iff_of_false nofun h

theorem Runtime.Destroying.killed_iff (d : s.Destroying cid) :
    (∀ pid ∈ d.jail.ctr.processes, d.guest.kill pid = none) ↔
      ∀ p ∈ d.processes.keys, (d.due p).pidTaken p ∨ p ∈ d.others := by
  rw [d.object, List.forall_mem_map]
  apply forall_congr'
  intro p
  rw [← d.mem_order]
  apply forall_congr'
  intro hp
  rw [d.answers p hp, Runtime.killAnswer_eq_none]

/-- The registered process of a record is the child that the record belongs to. -/
theorem Runtime.Destroying.child_pid (d : s.Destroying cid) (h : processRuntime.Reachable s)
    (hp : d.processes.lookup p = some e) (hc : (d.due p).children.lookup e.owner = some c) :
    c.pid = p ∧ p ∈ d.order := by
  have hm : p ∈ d.order := (d.mem_order p).2 (Table.mem_keys_iff.2 ⟨e, hp⟩)
  have hdue := d.meanwhile p hm
  have he : (d.due p).entry cid p = some e := by
    rw [Runtime.entry_eq_some, hdue.containers]
    exact ⟨d.processes, d.found, hp⟩
  obtain ⟨c', hc', hpid, -⟩ := (Runtime.Started.of_reachable (hdue.reachable h)).entry he
  cases hc.symm.trans hc'
  exact ⟨hpid, hm⟩

/-- `destroy` does all its work exactly if the bundle is found and no registered process is reaped
when its signal is due, unless its pid is in use again. -/
theorem Runtime.Destroying.complete_iff (h : processRuntime.Reachable s) (d : s.Destroying cid) :
    d.Complete ↔ (d.jail.ctr.status.isSome ∧ ∃ root dir, d.jail.ctr.spec.root = some root ∧
        d.guest.bundlePath root.path = .ok (some dir)) ∧
      ∀ p ∈ d.processes.keys, (d.due p).pidTaken p ∨ p ∈ d.others := by
  rw [← d.killed_iff]
  constructor
  · intro hd
    have hshow := Teardown.destroy_shows d.guest ⟨d.jail, []⟩
    rcases Jail.destroy_cases hshow.symm with ⟨-, hsame⟩ | ⟨-, hc, -⟩
    · have hstatuses := hd.stopped.1
      rw [Runtime.Destroying.after, hsame.2] at hstatuses
      exact absurd (congrArg List.length hstatuses) (by simp)
    · have ho := DestroyGuest.completes_iff.1 hc
      exact ⟨⟨ho.status, ho.bundle⟩, ho.killed⟩
  · rintro ⟨⟨hstatus, hbundle⟩, hkill⟩
    obtain ⟨st, hst⟩ := Teardown.destroy_of (t := ⟨d.jail, []⟩) ⟨hstatus, hbundle, hkill, d.hooks⟩
    have hafter := congrArg Prod.snd hst
    constructor
    · intro p e c hp hc _
      obtain ⟨rfl, hm⟩ := d.child_pid h hp hc
      rw [Runtime.Destroying.after, hafter]
      change (c.pid : Int) ∈ [] ++ d.jail.ctr.processes
      rw [List.nil_append, d.object]
      exact List.mem_map_of_mem hm
    · rw [Runtime.Destroying.after, hafter]
      refine ⟨_, rfl, ?_⟩
      rw [List.map_map]
      rfl
    · rw [Runtime.Destroying.after, hafter]
      exact ⟨rfl, rfl⟩

def stoppingSpec : Spec :=
  { hookedSpec with hooks := some ⟨[], [], [⟨"/bin/stop", [], [], 0⟩]⟩ }

/-- The object of the running container. -/
def runningJail (order : List Pid) : Jail where
  ctr := { LinuxContainer.new "c1" false stoppingSpec "1.0.1" [] with
    status := some "running"
    initProcessPid := 10
    processes := order.map fun p : Pid => (p : Int) }
  fifo := true
  hooksRun := []
  statuses := []

/-- A `destroy` while nothing else happens and every hook is willing. -/
def Runtime.calmDestroy (s : Runtime) (processes : Table Pid ProcessRecord) (order : List Pid)
    (hf : s.containers.lookup "c1" = some processes) (hn : order.Nodup)
    (hm : ∀ p, p ∈ order ↔ p ∈ processes.keys) : s.Destroying "c1" where
  processes := processes
  jail := runningJail order
  order := order
  due _ := s
  others := ∅
  guest := { willingDestroy with kill := fun pid => s.killAnswer ∅ pid.toNat }
  found := hf
  nodup := hn
  mem_order := hm
  object := rfl
  meanwhile _ _ := ⟨[], List.forall_mem_nil _, rfl⟩
  answers _ _ := rfl
  hooks _ _ := ⟨rfl, rfl⟩

theorem Runtime.Destroying.complete_firstCreate :
    ∃ d : (Runtime.play firstCreate).Destroying "c1", d.order = [10] ∧ d.Complete := by
  have hr : processRuntime.Reachable (Runtime.play firstCreate) := (Runtime.reach_play _).reachable
  have hkeys : ((Runtime.play firstCreate).containers.lookup "c1").map Finmap.keys =
      some {10} := by decide
  have htaken : (Runtime.play firstCreate).pidTaken 10 := by decide
  obtain ⟨ps, hps, hk⟩ := Option.map_eq_some_iff.1 hkeys
  have hm : ∀ p, p ∈ [10] ↔ p ∈ ps.keys := by simp [hk]
  refine ⟨Runtime.calmDestroy _ ps [10] hps (List.nodup_singleton 10) hm, rfl, ?_⟩
  apply (Runtime.Destroying.complete_iff hr _).2
  refine ⟨⟨rfl, _, _, rfl, rfl⟩, fun p hp => .inl ?_⟩
  cases List.mem_singleton.1 ((hm p).2 hp)
  exact htaken

/-- The second process of the container ends and is reaped, and nobody waits for it. -/
def reapedExec : List RuntimeAction :=
  secondExec "second" ++ [.exit 1 (.exited 0), .reap 1, .record "c1"]

/-- The run over the map comes to the reaped process first. -/
theorem Runtime.Destroying.incomplete :
    ¬ ∀ (s : Runtime) (cid : String) (d : s.Destroying cid), processRuntime.Reachable s →
      d.jail.ctr.status.isSome → (∃ root dir, d.jail.ctr.spec.root = some root ∧
        d.guest.bundlePath root.path = .ok (some dir)) → d.Complete := by
  intro h
  have hr : processRuntime.Reachable (Runtime.play reapedExec) := (Runtime.reach_play _).reachable
  have hkeys : ((Runtime.play reapedExec).containers.lookup "c1").map Finmap.keys =
      some {10, 11} := by decide
  have hphase : (((Runtime.play reapedExec).entry "c1" 10).bind fun e =>
      (Runtime.play reapedExec).children.lookup e.owner).map Child.phase = some .running := by
    decide
  have hkilled : (Teardown.destroy { willingDestroy with
      kill := fun pid => (Runtime.play reapedExec).killAnswer ∅ pid.toNat }
      ⟨runningJail [11, 10], []⟩).2.killed = [] := by decide
  obtain ⟨ps, hps, hk⟩ := Option.map_eq_some_iff.1 hkeys
  have hm : ∀ p, p ∈ [11, 10] ↔ p ∈ ps.keys := by simp [hk, or_comm]
  obtain ⟨c, hc, hrun⟩ := Option.map_eq_some_iff.1 hphase
  obtain ⟨e, he, hc⟩ := Option.bind_eq_some_iff.1 hc
  obtain ⟨ps', hps', he⟩ := Runtime.entry_eq_some.1 he
  cases hps.symm.trans hps'
  have hd := h _ _ (Runtime.calmDestroy _ ps [11, 10] hps (by decide) hm) hr rfl ⟨_, _, rfl, rfl⟩
  have hmem : (c.pid : Int) ∈ (Teardown.destroy { willingDestroy with
      kill := fun pid => (Runtime.play reapedExec).killAnswer ∅ pid.toNat }
      ⟨runningJail [11, 10], []⟩).2.killed := hd.killed 10 e c he hc hrun
  rw [hkilled] at hmem
  cases hmem

end KataAgent
