import KataAgent.HookStates
import Mathlib.Data.List.Chain

namespace KataAgent
open Fallible Transition
set_option autoImplicit true

/-- A registered container object, with a history of its status. -/
structure Tenant where
  ctr : LinuxContainer
  statuses : List String
  /-- A `StartContainer` has succeeded, and no `destroy` since. -/
  started : Bool
  deriving DecidableEq

/-- What the requests for one container id leave in the agent and in the guest. -/
structure ContainerLife where
  tenant : Option Tenant
  fifo : Bool
  hooksRun : List HookRun
  poisoned : Bool
  /-- The `RemoveContainer` calls with a timeout whose thread has destroyed the container. -/
  removals : Nat
  /-- The status histories of the objects that are gone. -/
  past : List (List String)
  deriving DecidableEq

inductive LifeRequest where
  /-- The request gets to `start` with the object that `new` gives it. -/
  | createContainer (noPivotRoot : Bool) (spec : Spec) (version : String)
      (annotations : List (String × String)) (g : StartGuest)
  | startContainer (g : ExecGuest)
  | execProcess (newProcess : Option ErrorKind) (g : StartGuest) (e : ExecGuest)
  /-- Without a timeout; the guest says whether the mounts can be removed in the end. -/
  | removeContainer (g : DestroyGuest) (released : Bool)
  /-- With a timeout: the thread that destroys the container, and then the rest. -/
  | destroyContainer (g : DestroyGuest) (late : Bool)
  | releaseContainer (released : Bool)

def ContainerLife.jail (s : ContainerLife) (c : Tenant) : Jail :=
  ⟨c.ctr, s.fifo, s.hooksRun, c.statuses⟩

/-- The object stays registered, whatever the call on it did. -/
def ContainerLife.keep (s : ContainerLife) (j : Jail) (started poisoned : Bool) : ContainerLife :=
  { s with
    tenant := some ⟨j.ctr, j.statuses, started⟩
    fifo := j.fifo
    hooksRun := j.hooksRun
    poisoned := poisoned }

/-- The object is dropped. -/
def ContainerLife.drop (s : ContainerLife) (j : Jail) (poisoned : Bool) : ContainerLife :=
  { s with
    fifo := j.fifo
    hooksRun := j.hooksRun
    poisoned := poisoned
    past := s.past ++ [j.statuses] }

/-- `containers.remove`, or the replacement by a create. -/
def ContainerLife.retire (s : ContainerLife) : ContainerLife :=
  { s with
    tenant := none
    past := s.past ++ (s.tenant.map Tenant.statuses).toList }

def ContainerLife.createContainer (s : ContainerLife) (ctr : LinuxContainer) (g : StartGuest) :
    ContainerLife :=
  match Jail.start g true ⟨ctr, s.fifo, s.hooksRun, ["stopped"]⟩ with
  | (.ok (), j) => s.retire.keep j false false
  | (.err _, j) => s.drop j false
  | (.panic, j) => s.drop j true

def ContainerLife.startContainer (s : ContainerLife) (g : ExecGuest) : ContainerLife :=
  match s.tenant with
  | none => s
  | some c =>
    match Jail.exec g (s.jail c) with
    | (.ok (), j) => s.keep j true false
    | (.err _, j) => s.keep j c.started false
    | (.panic, j) => s.keep j c.started true

def ContainerLife.execProcess (s : ContainerLife) (newProcess : Option ErrorKind) (g : StartGuest)
    (e : ExecGuest) : ContainerLife :=
  match newProcess, s.tenant with
  | some _, _ => s
  | none, none => s
  | none, some c =>
    match Jail.run g e false (s.jail c) with
    | (.ok (), j) => s.keep j c.started false
    | (.err _, j) => s.keep j c.started false
    | (.panic, j) => s.keep j c.started true

def ContainerLife.removeContainer (s : ContainerLife) (g : DestroyGuest) (released : Bool) :
    ContainerLife :=
  match s.tenant with
  | none => { s with poisoned := true }
  | some c =>
    match Jail.destroy g (s.jail c) with
    | (.ok (), j) =>
      if released then (s.keep j false false).retire else s.keep j false false
    | (.err _, j) => s.keep j c.started false
    | (.panic, j) => s.keep j c.started true

/-- In the thread every failure unwinds; a late one unwinds once the container is destroyed. -/
def ContainerLife.destroyContainer (s : ContainerLife) (g : DestroyGuest) (late : Bool) :
    ContainerLife :=
  match s.tenant with
  | none => { s with poisoned := true }
  | some c =>
    match Jail.destroy g (s.jail c) with
    | (.ok (), j) => { s.keep j false late with removals := s.removals + if late then 0 else 1 }
    | (_, j) => s.keep j c.started true

def ContainerLife.releaseContainer (s : ContainerLife) (released : Bool) : Option ContainerLife :=
  if s.removals = 0 then none
  else if released then some { s.retire with removals := s.removals - 1 }
  else some { s with removals := s.removals - 1 }

/-- One request, under the sandbox mutex. -/
def ContainerLife.step (cid : String) (s : ContainerLife) (a : LifeRequest) :
    Option ContainerLife :=
  if s.poisoned then none
  else
    match a with
    | .createContainer noPivotRoot spec version annotations g =>
      some (s.createContainer (.new cid noPivotRoot spec version annotations) g)
    | .startContainer g => some (s.startContainer g)
    | .execProcess newProcess g e => some (s.execProcess newProcess g e)
    | .removeContainer g released => some (s.removeContainer g released)
    | .destroyContainer g late => some (s.destroyContainer g late)
    | .releaseContainer released => s.releaseContainer released

/-- Any number of requests for one container id. -/
def containerLife (cid : String) : System ContainerLife LifeRequest where
  init s := ∃ fifo, s = ⟨none, fifo, [], false, 0, []⟩
  step := ContainerLife.step cid

/-- What may follow a status. -/
def StatusMove (old new : String) : Prop :=
  old = new ∨ old = "stopped" ∧ new = "created" ∨ old = "created" ∧ new = "running" ∨
    old = "running" ∧ new = "stopped"

/-- A start that is not of an init process comes past `join_namespaces`. -/
def StartGuest.Joins (g : StartGuest) (ctr : LinuxContainer) : Prop :=
  ctr.spec.linux.isSome ∧ g.namespaces = .ok () ∧ (ctr.ociState g.bundlePath).isOk ∧
    g.beforeHooks = .ok () ∧ g.afterHooks = .ok ()

instance : Decidable (StartGuest.Joins g ctr) := inferInstanceAs (Decidable (_ ∧ _))

/-- Every step of `destroy` up to the last one works. -/
def DestroyGuest.Completes (g : DestroyGuest) (ctr : LinuxContainer) : Prop :=
  (ctr.ociState g.bundlePath).isOk ∧ (∀ pid ∈ ctr.processes, g.kill pid = none) ∧
    ∀ n < (ctr.hooks .poststop).length, (g.poststop n).refused = none ∧ (g.poststop n).failed = none

instance : Decidable (DestroyGuest.Completes g ctr) := inferInstanceAs (Decidable (_ ∧ _))

/-- No exec in a running container, no removal of one that was never started, and no start of one
that is destroyed, as far as they get to write the status. -/
def StatusKept (s : ContainerLife) : LifeRequest → Prop
  | .startContainer g => ∀ c ∈ s.tenant, c.ctr.status = some "stopped" →
      ¬ (g.openFifo = none ∧ g.write = none)
  | .execProcess newProcess g _ => ∀ c ∈ s.tenant, c.ctr.status = some "running" →
      ¬ (newProcess = none ∧ g.Joins c.ctr)
  | .removeContainer g _ => ∀ c ∈ s.tenant, c.ctr.status = some "created" → ¬ g.Completes c.ctr
  | .destroyContainer g _ => ∀ c ∈ s.tenant, c.ctr.status = some "created" → ¬ g.Completes c.ctr
  | _ => True

instance : Decidable (StatusKept s a) := by
  cases a <;> unfold StatusKept <;> infer_instance

/-- The first of these alone. -/
def RunningKept (s : ContainerLife) : LifeRequest → Prop
  | .execProcess newProcess g _ => ∀ c ∈ s.tenant, c.ctr.status = some "running" →
      ¬ (newProcess = none ∧ g.Joins c.ctr)
  | _ => True

instance : Decidable (RunningKept s a) := by
  cases a <;> unfold RunningKept <;> infer_instance

/-- The status goes round as documented, and a started container is running. -/
structure ContainerLife.StatusOrdered (s : ContainerLife) : Prop where
  moves : ∀ c, s.tenant = some c → c.statuses.IsChain StatusMove
  past : ∀ statuses ∈ s.past, statuses.IsChain StatusMove
  running : ∀ c, s.tenant = some c → c.started = true → c.ctr.status = some "running"

variable {s t : ContainerLife} {j k : Jail} {g : StartGuest} {o : Outcome ErrorKind Unit}

/-- The status and its history are those of `j`. -/
def Jail.SameStatus (j k : Jail) : Prop :=
  k.ctr.status = j.ctr.status ∧ k.statuses = j.statuses

/-- The status was written once. -/
def Jail.Wrote (j k : Jail) (status : String) : Prop :=
  k.ctr.status = some status ∧ k.statuses = j.statuses ++ [status]

theorem prepareStart_sameStatus (g : StartGuest) (init : Bool) (j : Jail) :
    j.SameStatus (prepareStart g init j).2 :=
  prepareStart_preserves (I := j.SameStatus) (fun _ _ h => h) j ⟨rfl, rfl⟩

theorem joinNamespaces_sameStatus (g : StartGuest) (init : Bool) (st : OCIState) (k : Jail)
    (h : j.SameStatus k) : j.SameStatus (joinNamespaces g init st k).2 :=
  joinNamespaces_preserves (I := j.SameStatus) (fun _ _ _ _ _ h => h) k h

theorem joinNamespaces_ok (h : joinNamespaces g init st j = (.ok (), k)) :
    g.beforeHooks = .ok () ∧ g.afterHooks = .ok () := by
  obtain ⟨ctr, u, hu, h⟩ := Act.bind_eq_ok.1 h
  obtain ⟨_, v, hv, h⟩ := Act.bind_eq_ok.1 h
  obtain ⟨_, w, -, h⟩ := Act.bind_eq_ok.1 h
  exact ⟨(Prod.mk.inj hv).1, (Prod.mk.inj h).1⟩

theorem settleStart_wrote (g : StartGuest) (init : Bool) (k : Jail) (h : j.SameStatus k) :
    j.Wrote (settleStart g init k).2 "created" := by
  have hw : j.Wrote (k.setStatus "created") "created" := ⟨rfl, by rw [← h.2]; rfl⟩
  have hkeep : Act.Preserves (fun k => j.Wrote k "created") (do
      whenInit init do
        Act.modify (Jail.setInitPid g.child)
        Act.lift (syscall g.closeFifo)
      Act.lift g.rest
      Act.modify (Jail.addProcess g.child) : Act Jail ErrorKind Unit) := by
    refine .bind (whenInit_preserves fun _ => ?_) fun _ => ?_
    · exact .bind (.modify fun _ h => h) fun _ => .lift _
    · exact .bind (.lift _) fun _ => .modify fun _ h => h
  exact hkeep _ hw

/-- A start writes the status exactly if it comes past `join_namespaces`. -/
theorem Jail.start_cases (h : Jail.start g init j = (o, k)) :
    (o ≠ .ok () ∧ j.SameStatus k) ∨ (g.Joins j.ctr ∧ j.Wrote k "created") := by
  have hsame := prepareStart_sameStatus g init j
  rcases Act.bind_cases h with ⟨ho, hk⟩ | ⟨st, u, hu, h⟩
  · exact .inl ⟨ho (), hk ▸ hsame⟩
  rw [hu] at hsame
  have hsame' := joinNamespaces_sameStatus g init st u hsame
  rcases Act.bind_cases h with ⟨ho, hk⟩ | ⟨_, v, hv, h⟩
  · exact .inl ⟨ho (), hk ▸ hsame'⟩
  rw [hv] at hsame'
  obtain ⟨-, hl, hns, hoci, -⟩ := prepareStart_ok hu
  obtain ⟨hb, ha⟩ := joinNamespaces_ok hv
  have hw := settleStart_wrote g init v hsame'
  rw [h] at hw
  exact .inr ⟨⟨hl, hns, by rw [hoci]; rfl, hb, ha⟩, hw⟩

theorem Jail.run_exec (g : StartGuest) (e : ExecGuest) (j : Jail) :
    Jail.run g e false j = Jail.start g false j := by
  unfold Jail.run whenInit
  rw [Act.bind_apply]
  rcases Jail.start g false j with ⟨o, k⟩
  cases o with
  | ok _ => rfl
  | err e => rfl
  | panic => rfl

theorem Jail.exec_cases {g : ExecGuest} (h : Jail.exec g j = (o, k)) :
    (o ≠ .ok () ∧ j.SameStatus k) ∨
      (g.openFifo = none ∧ g.write = none ∧ j.Wrote k "running") := by
  rcases Act.bind_cases h with ⟨ho, rfl⟩ | ⟨_, u, hu, h⟩
  · exact .inl ⟨ho (), rfl, rfl⟩
  obtain ⟨hopen, rfl⟩ := Prod.mk.inj hu
  rcases Act.bind_cases h with ⟨ho, rfl⟩ | ⟨_, u, hu, h⟩
  · exact .inl ⟨ho (), rfl, rfl⟩
  obtain ⟨hwrite, rfl⟩ := Prod.mk.inj hu
  have h : Act.lift (syscall g.close) (j.setStatus "running") = (o, k) := h
  obtain ⟨-, rfl⟩ := Prod.mk.inj h
  exact .inr ⟨syscall_eq_ok.1 hopen, syscall_eq_ok.1 hwrite, rfl, rfl⟩

theorem killAll_ok {kill : Int → Option Errno} {pids : List Int}
    (h : killAll kill pids j = (.ok (), k)) : ∀ pid ∈ pids, kill pid = none := by
  induction pids generalizing j with
  | nil => nofun
  | cons pid pids ih =>
    obtain ⟨_, u, hu, h⟩ := Act.bind_eq_ok.1 h
    intro x hx
    rcases List.mem_cons.1 hx with rfl | hx
    · exact syscall_eq_ok.1 (Prod.mk.inj hu).1
    · exact ih h x hx

theorem runHooks_ok {hg : Nat → HookGuest} {hooks : List Hook}
    (h : runHooks point st child hg hooks j = (.ok (), k)) :
    ∀ n < hooks.length, (hg n).refused = none ∧ (hg n).failed = none := by
  induction hooks generalizing hg j with
  | nil => nofun
  | cons hk hooks ih =>
    obtain ⟨_, u, hu, h⟩ := Act.bind_eq_ok.1 h
    intro n hn
    cases n with
    | zero =>
      obtain ⟨_, v, hv, hu⟩ := Act.bind_eq_ok.1 hu
      obtain ⟨_, w, -, hu⟩ := Act.bind_eq_ok.1 hu
      exact ⟨Outcome.ofFault_eq_ok.1 (Prod.mk.inj hv).1, Outcome.ofFault_eq_ok.1 (Prod.mk.inj hu).1⟩
    | succ n => exact ih h n (Nat.lt_of_succ_lt_succ hn)

theorem stopAll_ok {g : DestroyGuest} (h : stopAll g j = (.ok (), k)) : g.Completes j.ctr := by
  obtain ⟨ctr, u, hu, h⟩ := Act.bind_eq_ok.1 h
  cases hu
  obtain ⟨st, u, hu, h⟩ := Act.bind_eq_ok.1 h
  obtain ⟨hoci, rfl⟩ := Prod.mk.inj hu
  obtain ⟨_, v, hv, h⟩ := Act.bind_eq_ok.1 h
  exact ⟨by rw [hoci]; rfl, killAll_ok hv, runHooks_ok h⟩

theorem Jail.destroy_cases {g : DestroyGuest} (h : Jail.destroy g j = (o, k)) :
    (o ≠ .ok () ∧ j.SameStatus k) ∨ (o = .ok () ∧ g.Completes j.ctr ∧ j.Wrote k "stopped") := by
  have hsame : j.SameStatus (stopAll g j).2 :=
    stopAll_preserves (I := j.SameStatus) (fun _ _ _ _ h => h) j ⟨rfl, rfl⟩
  rcases Act.bind_cases h with ⟨ho, hk⟩ | ⟨_, u, hu, h⟩
  · exact .inl ⟨ho (), hk ▸ hsame⟩
  rw [hu] at hsame
  cases h
  exact .inr ⟨rfl, stopAll_ok hu, rfl, by rw [← hsame.2]; rfl⟩

/-- The status is one of the three, and the last of its history. -/
structure Tenant.Ordered (move : String → String → Prop) (c : Tenant) : Prop where
  known : ∃ x ∈ ["stopped", "created", "running"], c.ctr.status = some x ∧
    c.statuses.getLast? = some x
  moves : c.statuses.IsChain move
  running : c.started = true → c.ctr.status = some "running"

section
variable {move : String → String → Prop} {c : Tenant}

theorem Tenant.Ordered.same (h : c.Ordered move) (hk : (s.jail c).SameStatus k)
    (hs : up = true → c.started = true) : Tenant.Ordered move ⟨k.ctr, k.statuses, up⟩ := by
  obtain ⟨x, hx, hst, hl⟩ := h.known
  exact ⟨⟨x, hx, hk.1.trans hst, by rw [hk.2]; exact hl⟩, by rw [hk.2]; exact h.moves,
    fun ht => hk.1.trans (h.running (hs ht))⟩

theorem Tenant.Ordered.write (h : c.Ordered move) (hk : (s.jail c).Wrote k new)
    (hnew : new ∈ ["stopped", "created", "running"])
    (hmove : ∀ x, c.ctr.status = some x → move x new)
    (hs : up = true → new = "running") : Tenant.Ordered move ⟨k.ctr, k.statuses, up⟩ := by
  obtain ⟨x, hx, hst, hl⟩ := h.known
  refine ⟨⟨new, hnew, hk.1, ?_⟩, ?_, fun ht => ?_⟩
  · rw [hk.2]
    exact List.getLast?_concat
  · rw [hk.2]
    refine List.isChain_append.2 ⟨h.moves, .singleton _, fun y hy z hz => ?_⟩
    cases hl.symm.trans hy
    cases hz
    exact hmove x hst
  · rw [hk.1, hs ht]

structure ContainerLife.Ordered (move : String → String → Prop) (s : ContainerLife) : Prop where
  tenant : ∀ c, s.tenant = some c → c.Ordered move
  past : ∀ statuses ∈ s.past, statuses.IsChain move

/-- The request writes the status only where that is one of the moves, and an exec does not
write it under a running container. -/
def Allowed (move : String → String → Prop) (s : ContainerLife) : LifeRequest → Prop
  | .startContainer g => ∀ c ∈ s.tenant, g.openFifo = none → g.write = none →
      ∀ x, c.ctr.status = some x → move x "running"
  | .execProcess newProcess g _ => ∀ c ∈ s.tenant, newProcess = none → g.Joins c.ctr →
      ∀ x, c.ctr.status = some x → move x "created" ∧ x ≠ "running"
  | .removeContainer g _ => ∀ c ∈ s.tenant, g.Completes c.ctr →
      ∀ x, c.ctr.status = some x → move x "stopped"
  | .destroyContainer g _ => ∀ c ∈ s.tenant, g.Completes c.ctr →
      ∀ x, c.ctr.status = some x → move x "stopped"
  | _ => True

theorem ContainerLife.Ordered.keep (h : s.Ordered move)
    (hc : Tenant.Ordered move ⟨k.ctr, k.statuses, up⟩) : (s.keep k up unwound).Ordered move where
  tenant := by
    rintro _ ⟨⟩
    exact hc
  past := h.past

theorem ContainerLife.Ordered.retire (h : s.Ordered move) : s.retire.Ordered move where
  tenant := by
    intro c hc
    cases hc
  past := by
    intro l hl
    rcases List.mem_append.1 hl with hl | hl
    · exact h.past l hl
    · obtain ⟨c, hc, rfl⟩ := Option.map_eq_some_iff.1 (Option.mem_toList.1 hl)
      exact (h.tenant c hc).moves

theorem ContainerLife.Ordered.createContainer (h : s.Ordered move)
    (hm : move "stopped" "created") (ctr : LinuxContainer) (hctr : ctr.status = some "stopped")
    (g : StartGuest) : (s.createContainer ctr g).Ordered move := by
  have hnew : Tenant.Ordered move ⟨ctr, ["stopped"], false⟩ :=
    ⟨⟨"stopped", by decide, hctr, rfl⟩, .singleton _, nofun⟩
  -- the new object has a history of its own, also when it is dropped
  have hj : ∀ o j, Jail.start g true ⟨ctr, s.fifo, s.hooksRun, ["stopped"]⟩ = (o, j) →
      Tenant.Ordered move ⟨j.ctr, j.statuses, false⟩ := by
    intro o j hj
    rcases Jail.start_cases hj with ⟨-, hk⟩ | ⟨-, hk⟩
    · exact hnew.same (s := s) hk id
    · refine hnew.write (s := s) hk (by decide) (fun x hx => ?_) ?_
      · cases hctr.symm.trans hx
        exact hm
      · exact fun ht => by cases ht
  have hdrop : ∀ o j unwound, Jail.start g true ⟨ctr, s.fifo, s.hooksRun, ["stopped"]⟩ = (o, j) →
      (s.drop j unwound).Ordered move := by
    intro o j unwound hs
    refine ⟨h.tenant, fun l hl => ?_⟩
    rcases List.mem_append.1 hl with hl | hl
    · exact h.past l hl
    · cases List.mem_singleton.1 hl
      exact (hj o j hs).moves
  rw [ContainerLife.createContainer]
  split
  · rename_i hs
    exact h.retire.keep (hj _ _ hs)
  · rename_i hs
    exact hdrop _ _ _ hs
  · rename_i hs
    exact hdrop _ _ _ hs

theorem ContainerLife.Ordered.startContainer {g : ExecGuest} (h : s.Ordered move)
    (hc : Allowed move s (.startContainer g)) : (s.startContainer g).Ordered move := by
  rw [ContainerLife.startContainer]
  split
  · exact h
  · rename_i c ht
    have hwrite : ∀ {k up}, g.openFifo = none → g.write = none →
        (s.jail c).Wrote k "running" → Tenant.Ordered move ⟨k.ctr, k.statuses, up⟩ :=
      fun hopen hwrite hk =>
        (h.tenant c ht).write hk (by decide) (hc c ht hopen hwrite) fun _ => rfl
    split
    · rename_i hs
      rcases Jail.exec_cases hs with ⟨ho, -⟩ | ⟨hopen, hw, hk⟩
      · exact absurd rfl ho
      · exact h.keep (hwrite hopen hw hk)
    · rename_i hs
      rcases Jail.exec_cases hs with ⟨-, hk⟩ | ⟨hopen, hw, hk⟩
      · exact h.keep ((h.tenant c ht).same hk id)
      · exact h.keep (hwrite hopen hw hk)
    · rename_i hs
      rcases Jail.exec_cases hs with ⟨-, hk⟩ | ⟨hopen, hw, hk⟩
      · exact h.keep ((h.tenant c ht).same hk id)
      · exact h.keep (hwrite hopen hw hk)

theorem ContainerLife.Ordered.execProcess {e : ExecGuest} (h : s.Ordered move)
    (hc : Allowed move s (.execProcess newProcess g e)) :
    (s.execProcess newProcess g e).Ordered move := by
  unfold ContainerLife.execProcess
  split
  · exact h
  · exact h
  · rename_i c ht
    have hend : ∀ o k, Jail.run g e false (s.jail c) = (o, k) →
        Tenant.Ordered move ⟨k.ctr, k.statuses, c.started⟩ := by
      intro o k hr
      rw [Jail.run_exec] at hr
      rcases Jail.start_cases hr with ⟨-, hk⟩ | ⟨hj, hk⟩
      · exact (h.tenant c ht).same hk id
      · have hmove := hc c ht rfl hj
        refine (h.tenant c ht).write hk (by decide) (fun x hx => (hmove x hx).1) fun hs => ?_
        exact absurd rfl (hmove _ ((h.tenant c ht).running hs)).2
    split <;> rename_i hr <;> exact h.keep (hend _ _ hr)

/-- A destroyed object is stopped, and one that could not be destroyed is as before. -/
theorem Tenant.Ordered.destroy {g : DestroyGuest} (h : c.Ordered move)
    (hc : g.Completes c.ctr → ∀ x, c.ctr.status = some x → move x "stopped")
    (hd : Jail.destroy g (s.jail c) = (o, k)) :
    Tenant.Ordered move ⟨k.ctr, k.statuses, if o = .ok () then false else c.started⟩ := by
  rcases Jail.destroy_cases hd with ⟨ho, hk⟩ | ⟨ho, hg, hk⟩
  · rw [if_neg ho]
    exact h.same hk id
  · rw [if_pos ho]
    exact h.write hk (by decide) (hc hg) fun ht => by cases ht

theorem ContainerLife.Ordered.removeContainer {g : DestroyGuest} (h : s.Ordered move)
    (hc : Allowed move s (.removeContainer g released)) :
    (s.removeContainer g released).Ordered move := by
  rw [ContainerLife.removeContainer]
  split
  · exact ⟨h.tenant, h.past⟩
  · rename_i c ht
    have hend := fun o k => (h.tenant c ht).destroy (s := s) (o := o) (k := k) (hc c ht)
    split
    · rename_i hd
      have hk := hend _ _ hd
      split
      · exact (h.keep hk).retire
      · exact h.keep hk
    · rename_i hd
      exact h.keep (hend _ _ hd)
    · rename_i hd
      exact h.keep (hend _ _ hd)

theorem ContainerLife.Ordered.destroyContainer {g : DestroyGuest} (h : s.Ordered move)
    (hc : Allowed move s (.destroyContainer g late)) :
    (s.destroyContainer g late).Ordered move := by
  rw [ContainerLife.destroyContainer]
  split
  · exact ⟨h.tenant, h.past⟩
  · rename_i c ht
    have hend := fun o k => (h.tenant c ht).destroy (s := s) (o := o) (k := k) (hc c ht)
    rcases hd : Jail.destroy g (s.jail c) with ⟨o, k⟩
    have hk := hend o k hd
    cases o with
    | ok _ =>
      refine ⟨fun d hd => ?_, h.past⟩
      cases hd
      exact hk
    | err e => exact h.keep hk
    | panic => exact h.keep hk

theorem ContainerLife.Ordered.step (h : s.Ordered move) (hm : move "stopped" "created")
    (hc : Allowed move s a) (hst : (containerLife cid).step s a = some t) : t.Ordered move := by
  simp only [containerLife, ContainerLife.step, Option.ite_none_left_eq_some] at hst
  obtain ⟨-, hst⟩ := hst
  cases a with
  | createContainer noPivotRoot spec version annotations g =>
    obtain rfl := Option.some.inj hst
    exact h.createContainer hm _ rfl g
  | startContainer g =>
    obtain rfl := Option.some.inj hst
    exact h.startContainer hc
  | execProcess newProcess g e =>
    obtain rfl := Option.some.inj hst
    exact h.execProcess hc
  | removeContainer g released =>
    obtain rfl := Option.some.inj hst
    exact h.removeContainer hc
  | destroyContainer g late =>
    obtain rfl := Option.some.inj hst
    exact h.destroyContainer hc
  | releaseContainer released =>
    simp only [ContainerLife.releaseContainer, Option.ite_none_left_eq_some] at hst
    obtain ⟨-, hst⟩ := hst
    split at hst
    · obtain rfl := Option.some.inj hst
      exact ⟨h.retire.tenant, h.retire.past⟩
    · obtain rfl := Option.some.inj hst
      exact ⟨h.tenant, h.past⟩

theorem ContainerLife.Ordered.init (h : (containerLife cid).init s) : s.Ordered move := by
  obtain ⟨fifo, rfl⟩ := h
  exact ⟨fun c hc => (by cases hc), fun l hl => (by cases hl)⟩

end

theorem RunningKept.allowed (h : RunningKept s a) : Allowed (fun _ _ => True) s a := by
  cases a with
  | createContainer noPivotRoot spec version annotations g => trivial
  | startContainer g => exact fun _ _ _ _ _ _ => trivial
  | execProcess newProcess g e =>
    intro c hc hp hj x hx
    refine ⟨trivial, ?_⟩
    rintro rfl
    exact h c hc hx ⟨hp, hj⟩
  | removeContainer g released => exact fun _ _ _ _ _ => trivial
  | destroyContainer g late => exact fun _ _ _ _ _ => trivial
  | releaseContainer released => trivial

theorem StatusKept.allowed (h : StatusKept s a) (hs : s.Ordered StatusMove) :
    Allowed StatusMove s a := by
  have hknown : ∀ c ∈ s.tenant, ∀ x, c.ctr.status = some x →
      x = "stopped" ∨ x = "created" ∨ x = "running" := by
    intro c hc x hx
    obtain ⟨y, hy, hst, -⟩ := (hs.tenant c hc).known
    cases hst.symm.trans hx
    simpa only [List.mem_cons, List.not_mem_nil, or_false] using hy
  have hstop : ∀ c ∈ s.tenant, c.ctr.status ≠ some "created" → ∀ x, c.ctr.status = some x →
      StatusMove x "stopped" := by
    intro c hc hne x hx
    rcases hknown c hc x hx with rfl | rfl | rfl
    · exact .inl rfl
    · exact absurd hx hne
    · exact .inr (.inr (.inr ⟨rfl, rfl⟩))
  cases a with
  | createContainer noPivotRoot spec version annotations g => trivial
  | startContainer g =>
    intro c hc hopen hwrite x hx
    rcases hknown c hc x hx with rfl | rfl | rfl
    · exact absurd ⟨hopen, hwrite⟩ (h c hc hx)
    · exact .inr (.inr (.inl ⟨rfl, rfl⟩))
    · exact .inl rfl
  | execProcess newProcess g e =>
    intro c hc hp hj x hx
    rcases hknown c hc x hx with rfl | rfl | rfl
    · exact ⟨.inr (.inl ⟨rfl, rfl⟩), by decide⟩
    · exact ⟨.inl rfl, by decide⟩
    · exact absurd ⟨hp, hj⟩ (h c hc hx)
  | removeContainer g released => exact fun c hc hg => hstop c hc fun hs => h c hc hs hg
  | destroyContainer g late => exact fun c hc hg => hstop c hc fun hs => h c hc hs hg
  | releaseContainer released => trivial

/-- Where no exec writes the status of a running container, a started one is running until it is
destroyed; where nothing else writes it out of turn either, it goes round as documented. -/
theorem ContainerLife.status_ordered :
    ((containerLife cid).Reach RunningKept s →
      ∀ c, s.tenant = some c → c.started = true → c.ctr.status = some "running") ∧
    ((containerLife cid).Reach StatusKept s → s.StatusOrdered) := by
  constructor
  · intro h
    have ho : s.Ordered fun _ _ => True := h.invariant (fun _ => .init)
      fun _ _ _ hs hc hst => hs.step trivial hc.allowed hst
    exact fun c hc => (ho.tenant c hc).running
  · intro h
    have ho : s.Ordered StatusMove := h.invariant (fun _ => .init)
      fun _ _ _ hs hc hst => hs.step (.inr (.inl ⟨rfl, rfl⟩)) (hc.allowed hs) hst
    exact ⟨fun c hc => (ho.tenant c hc).moves, ho.past, fun c hc => (ho.tenant c hc).running⟩

def willingExec : ExecGuest := ⟨none, none, none⟩

def willingDestroy : DestroyGuest :=
  ⟨fun _ => .ok (some "/run/bundle"), fun _ => none, fun _ => ⟨none, none⟩⟩

theorem childPid_pos : (0 : Int) < 10 := by
  decide

def createRequest : LifeRequest :=
  .createContainer false hookedSpec "1.0.1" [] (willingStart 10 childPid_pos)

def execRequest (namespaces : Outcome ErrorKind Unit) : LifeRequest :=
  .execProcess none { willingStart 11 (by decide) with namespaces := namespaces } willingExec

def emptyLife : ContainerLife := ⟨none, false, [], false, 0, []⟩

theorem emptyLife_init : (containerLife "c1").init emptyLife := ⟨false, rfl⟩

/-- An exec before the start works, one after it fails, and then the container is destroyed. -/
def orderedLife : List LifeRequest :=
  [createRequest, execRequest (.ok ()), .startContainer willingExec,
    execRequest (.err (.errorCode "invalid namespace")), .removeContainer willingDestroy false]

theorem ContainerLife.status_ordered_orderedLife :
    (∃ s c, (containerLife "c1").runIf RunningKept emptyLife (orderedLife.take 4) = some s ∧
      s.tenant = some c ∧ c.started = true ∧ c.ctr.status = some "running") ∧
    ∃ s, (containerLife "c1").runIf StatusKept emptyLife orderedLife = some s ∧
      s.tenant.map Tenant.statuses = some ["stopped", "created", "created", "running", "stopped"] ∧
      s.StatusOrdered := by
  constructor
  · refine ⟨_, _, rfl, rfl, rfl, ?_⟩
    exact ContainerLife.status_ordered.1
      (System.Reach.runIf (.init emptyLife_init) (l := orderedLife.take 4) rfl) _ rfl rfl
  · refine ⟨_, rfl, by decide, ?_⟩
    exact ContainerLife.status_ordered.2
      (System.Reach.runIf (.init emptyLife_init) (l := orderedLife) rfl)

/-- An exec in the running container makes it created again. -/
def execLife : List LifeRequest :=
  [createRequest, .startContainer willingExec, execRequest (.ok ())]

theorem ContainerLife.status_reversed :
    ¬ ∀ s, (containerLife "c1").Reachable s → s.StatusOrdered := by
  intro h
  have hs := h _ (System.reachable_of_run (l := execLife) emptyLife_init rfl)
  exact absurd (hs.running _ rfl rfl) (by decide)

end KataAgent
