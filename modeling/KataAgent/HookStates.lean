import KataAgent.ContainerObject
import KataAgent.Transition

namespace KataAgent
open Fallible Transition
set_option autoImplicit true

inductive JailAction where
  | start (g : StartGuest) (init : Bool)
  | run (g : StartGuest) (e : ExecGuest) (init : Bool)
  | exec (e : ExecGuest)
  | destroy (g : DestroyGuest)

def JailAction.perform : JailAction → Act Jail ErrorKind Unit
  | .start g init => Jail.start g init
  | .run g e init => Jail.run g e init
  | .exec e => Jail.exec e
  | .destroy g => Jail.destroy g

/-- Any calls on one container object, however they end. -/
def containerObject : System Jail JailAction where
  init j := ∃ id noPivotRoot spec version annotations fifo,
    j = ⟨.new id noPivotRoot spec version annotations, fifo, [], ["stopped"]⟩
  step j a := some (a.perform j).2

/-- The state describes the container that is being created. -/
def HookRun.Describes (r : HookRun) : Prop := r.state.pid = r.child ∧ r.state.status ≠ "stopped"

instance : DecidablePred HookRun.Describes := fun _ => inferInstanceAs (Decidable (_ ∧ _))

/-- A state that was computed before there was an init process. -/
def OCIState.Early (st : OCIState) : Prop := st.pid = 0 ∧ st.status = "stopped" ∨ st.pid = -1

/-- Until its fifo is made, the object has no init process, and so no hook hears of one. -/
structure Jail.HooksMisled (j : Jail) : Prop where
  unset : j.fifo = false → j.ctr.initProcessPid = -1
  told : ∀ r ∈ j.hooksRun, r.point ≠ .poststop → 0 < r.child ∧ r.state.Early

variable {j k : Jail} {g : StartGuest}

theorem LinuxContainer.ociState_ok {ctr : LinuxContainer}
    {b : String → Outcome ErrorKind (Option String)} (h : ctr.ociState b = .ok st) :
    ctr.status = some st.status ∧
      st.pid = if st.status ≠ "stopped" then ctr.initProcessPid else 0 := by
  rw [LinuxContainer.ociState] at h
  split at h
  · cases h
  · cases h
  · rename_i status root hs hr
    obtain ⟨bundle, -, h⟩ := Outcome.bind_eq_ok.1 h
    cases bundle with
    | none => cases h
    | some bundle =>
      cases h
      exact ⟨hs, rfl⟩

theorem makeFifo_ok (h : makeFifo g j = (.ok (), k)) :
    j.fifo = false ∧ k = { j with fifo := true } := by
  obtain ⟨fifo, u, hu, h⟩ := Act.bind_eq_ok.1 h
  cases hu
  split at h
  · cases h
  · rename_i hf
    obtain ⟨_, u, hu, h⟩ := Act.bind_eq_ok.1 h
    cases (Prod.mk.inj hu).2
    obtain ⟨_, v, hv, h⟩ := Act.bind_eq_ok.1 h
    cases hv
    exact ⟨by simpa using hf, (Prod.mk.inj h).2.symm⟩

theorem prepareStart_ok (h : prepareStart g init j = (.ok st, k)) :
    k.ctr = j.ctr ∧ j.ctr.spec.linux.isSome ∧ g.namespaces = .ok () ∧
      j.ctr.ociState g.bundlePath = .ok st ∧
      (init = true → j.fifo = false ∧ k.fifo = true) := by
  obtain ⟨_, u, hu, h⟩ := Act.bind_eq_ok.1 h
  have hfirst : u.ctr = j.ctr ∧ (init = true → j.fifo = false ∧ u.fifo = true) := by
    rw [whenInit] at hu
    split at hu
    · obtain ⟨hf, rfl⟩ := makeFifo_ok hu
      exact ⟨rfl, fun _ => ⟨hf, rfl⟩⟩
    · rename_i hn
      cases hu
      exact ⟨rfl, fun hi => absurd hi hn⟩
  obtain ⟨ctr, v, hv, h⟩ := Act.bind_eq_ok.1 h
  cases hv
  split at h
  · cases h
  · rename_i hl
    obtain ⟨_, v, hv, h⟩ := Act.bind_eq_ok.1 h
    obtain ⟨hns, rfl⟩ := Prod.mk.inj hv
    obtain ⟨hst, rfl⟩ := Prod.mk.inj h
    rw [hfirst.1] at hl hst
    have hlinux : j.ctr.spec.linux.isSome := by
      rwa [Bool.not_eq_true, Option.isNone_eq_false_iff] at hl
    exact ⟨hfirst.1, hlinux, hns, hst, hfirst.2⟩

theorem Jail.HooksMisled.setStatus (h : j.HooksMisled) (status : String) :
    (j.setStatus status).HooksMisled := ⟨h.unset, h.told⟩

theorem Jail.HooksMisled.log (h : j.HooksMisled)
    (hr : r.point ≠ .poststop → 0 < r.child ∧ r.state.Early) :
    Jail.HooksMisled { j with hooksRun := j.hooksRun ++ [r] } := by
  refine ⟨h.unset, fun x hx hp => ?_⟩
  rcases List.mem_append.1 hx with hx | hx
  · exact h.told x hx hp
  · cases List.mem_singleton.1 hx
    exact hr hp

theorem settleStart_misled (hj : j.HooksMisled) (hf : init = true → j.fifo = true) :
    (settleStart g init j).2.HooksMisled := by
  have hkeep : Act.Preserves (fun j => j.HooksMisled ∧ (init = true → j.fifo = true))
      (settleStart g init) := by
    refine .bind (.modify fun j hj => ⟨hj.1.setStatus _, hj.2⟩) fun _ => ?_
    refine .bind (whenInit_preserves fun hi => ?_) fun _ => ?_
    · refine .bind (.modify fun j hj => ⟨⟨fun hno => ?_, hj.1.told⟩, hj.2⟩) fun _ => .lift _
      exact absurd (hj.2 hi) (by rw [show j.fifo = false from hno]; decide)
    · exact .bind (.lift _) fun _ => .modify fun j hj => ⟨⟨hj.1.unset, hj.1.told⟩, hj.2⟩
  exact (hkeep j ⟨hj, hf⟩).1

theorem Jail.start_misled (g : StartGuest) (init : Bool) :
    Act.Preserves Jail.HooksMisled (Jail.start g init) := by
  apply Act.Preserves.bind_ok
  · exact prepareStart_preserves fun j _ hj => ⟨nofun, hj.told⟩
  · intro j st k hj hst hk
    obtain ⟨hctr, -, -, hoci, hfifo⟩ := prepareStart_ok hst
    obtain ⟨-, hpid⟩ := LinuxContainer.ociState_ok hoci
    have hearly : init = true → st.Early := by
      intro hi
      rw [hj.unset (hfifo hi).1] at hpid
      rw [OCIState.Early]
      split at hpid
      · exact .inr hpid
      · rename_i hs
        exact .inl ⟨hpid, by simpa using hs⟩
    have hjoin : Act.Preserves (fun j => j.HooksMisled ∧ (init = true → j.fifo = true))
        (joinNamespaces g init st) :=
      joinNamespaces_preserves fun j point h hi _ hj =>
        ⟨hj.1.log fun _ => ⟨g.child_pos, hearly hi⟩, hj.2⟩
    have hu := hjoin k ⟨hk, fun hi => (hfifo hi).2⟩
    rw [Act.bind_apply]
    rcases hr : joinNamespaces g init st k with ⟨o, u⟩
    rw [hr] at hu
    cases o with
    | ok _ => exact settleStart_misled hu.1 hu.2
    | err e => exact hu.1
    | panic => exact hu.1

theorem Jail.exec_misled (e : ExecGuest) : Act.Preserves Jail.HooksMisled (Jail.exec e) := by
  refine .bind (.lift _) fun _ => ?_
  refine .bind (.lift _) fun _ => ?_
  exact .bind (.modify fun j hj => hj.setStatus _) fun _ => .lift _

theorem JailAction.misled (a : JailAction) : Act.Preserves Jail.HooksMisled a.perform := by
  cases a with
  | start g init => exact Jail.start_misled g init
  | run g e init =>
    refine .bind (Jail.start_misled g init) fun _ => ?_
    refine whenInit_preserves fun _ => ?_
    exact .bind (Jail.exec_misled e) fun _ => .modify fun j hj => hj.setStatus _
  | exec e => exact Jail.exec_misled e
  | destroy g =>
    refine .bind (stopAll_preserves fun j h st child hj => hj.log fun hne => ?_) fun _ => ?_
    · exact absurd rfl hne
    · exact .modify fun j hj => hj.setStatus _

theorem Jail.misled_of_reach (h : containerObject.Reachable j) : j.HooksMisled := by
  apply h.invariant
  · rintro j ⟨id, noPivotRoot, spec, version, annotations, fifo, rfl⟩
    exact ⟨fun _ => rfl, nofun⟩
  · intro j a k hj _ hk
    cases hk
    exact a.misled j hj

/-- No prestart or poststart hook gets a state of the container that is being created. -/
theorem Jail.hooks_misled (h : containerObject.Reachable j) :
    ∀ r ∈ j.hooksRun, r.point ≠ .poststop → ¬ r.Describes := by
  rintro r hr hp ⟨hpid, hstatus⟩
  obtain ⟨hpos, ⟨-, hs⟩ | hm⟩ := (Jail.misled_of_reach h).told r hr hp
  · exact hstatus hs
  · omega

/-- A guest that lets everything work. -/
def willingStart (child : Int) (h : 0 < child) : StartGuest where
  mkfifo := none
  openFifo := none
  namespaces := .ok ()
  bundlePath := fun _ => .ok (some "/run/bundle")
  beforeHooks := .ok ()
  betweenHooks := .ok ()
  afterHooks := .ok ()
  prestart := fun _ => ⟨none, none⟩
  poststart := fun _ => ⟨none, none⟩
  child := child
  closeFifo := none
  rest := .ok ()
  child_pos := h

def hookedSpec : Spec where
  process := none
  root := some ⟨"/run/bundle/rootfs", false⟩
  hostname := "pod"
  hooks := some ⟨[⟨"/bin/pre", [], [], 0⟩], [⟨"/bin/post", [], [], 0⟩], []⟩
  linux := some ⟨[], [], [], none, [], []⟩

def hookedContainer : Jail :=
  ⟨.new "c1" false hookedSpec "1.0.1" [], false, [], ["stopped"]⟩

theorem hookedContainer_init : containerObject.init hookedContainer :=
  ⟨"c1", false, hookedSpec, "1.0.1", [], false, rfl⟩

/-- The container is created as process 10. -/
def hookedStart : List JailAction := [.start (willingStart 10 (by decide)) true]

theorem Jail.hooks_misled_hookedStart : ∃ j,
    containerObject.run hookedContainer hookedStart = some j ∧
    j.hooksRun.map (fun r => (r.point, r.state.pid, r.child)) =
      [(.prestart, 0, 10), (.poststart, 0, 10)] ∧
    ∀ r ∈ j.hooksRun, r.point ≠ .poststop → ¬ r.Describes := by
  refine ⟨_, rfl, by decide, ?_⟩
  exact Jail.hooks_misled (System.reachable_of_run (l := hookedStart) hookedContainer_init rfl)

theorem Jail.hooks_not_described : ¬ ∀ j, containerObject.Reachable j →
    ∀ r ∈ j.hooksRun, r.point ≠ .poststop → r.Describes := by
  intro h
  have hj := h _ (System.reachable_of_run (l := hookedStart) hookedContainer_init rfl)
  exact absurd hj (by decide)

end KataAgent
