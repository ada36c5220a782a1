import KataAgent.ChildControl
import KataAgent.NamespaceMembers
import KataAgent.NamespaceSets
import KataAgent.StartOrder

namespace KataAgent
open Fallible LastWrite Namespaces
set_option autoImplicit true

/-- The kernel's answers to a start: the namespace that `setns` enters, or `none` where it refuses
with an error that is let pass, and the namespaces that are made. -/
structure NamespaceKernel (ι : Type) where
  enters : RawFd → CloneFlag → Option ι
  fresh : CloneFlag → ι

/-- A process does not move to another pid namespace itself. -/
def CloneFlag.Deferred (k : CloneFlag) : Prop := k = .newPid

instance : DecidablePred CloneFlag.Deferred := fun k => inferInstanceAs (Decidable (k = .newPid))

def joinMove (g : NamespaceKernel ι) (p : CloneFlag × RawFd) : List (Move CloneFlag ι) :=
  match g.enters p.2 p.1 with
  | none => []
  | some n => [.join p.1 n]

def SysCall.moves (g : NamespaceKernel ι) : SysCall → List (Move CloneFlag ι)
  | .setns fd flag => joinMove g (flag, fd)
  | .unshare flags => [.make flags g.fresh]
  | _ => []

def Instr.moves (g : NamespaceKernel ι) : Instr → List (Move CloneFlag ι)
  | .call c => c.moves g
  | .fork => [.fork]
  | _ => []

/-- What the process does that becomes the container's, up to its `exec`; with a pid namespace it
is the second child from the fork on. -/
def StartArgs.containerPath (a : StartArgs) : List Instr := List.flatten
  [joinNamespacesChild a, onlyIf a.pidns [.fork], joinNamespacesContainer a, startAfterJoin a]

/-- The namespaces of the process that `exec`s, where the agent that forks is in those of `m`. -/
def containerMember (g : NamespaceKernel ι) (a : StartArgs) (m : Member CloneFlag ι) :
    Member CloneFlag ι :=
  m.moves CloneFlag.Deferred (.fork :: a.containerPath.flatMap (Instr.moves g))

/-- The namespace of a kind that the list has the process join. -/
def StartArgs.joined (a : StartArgs) (g : NamespaceKernel ι) (k : CloneFlag) : Option ι :=
  lastWrite (fun p => if p.1 = k then g.enters p.2 p.1 else none) a.toJoin

/-- `start` hands on what it has collected. -/
structure StartArgs.Takes (a : StartArgs) (t : NamespaceSets) : Prop where
  toNew : a.toNew = t.toNew
  toJoin : a.toJoin = t.toJoin
  pidns : a.pidns = t.pidns
  userns : a.userns = decide (.newUser ∈ t.toNew)

/-- `setns` enters what was at the path when its file was opened. -/
def NamespaceKernel.Opens (g : NamespaceKernel ι) (place : String → CloneFlag → ι)
    (t : NamespaceSets) : Prop :=
  List.Forall₂ (fun p path => g.enters p.2 p.1 = some (place path p.1)) t.toJoin t.opened

/-- As before, but a user namespace may be refused with `EINVAL`, which is let pass. Where a `setns`
is refused otherwise, the process does not come to its `exec`. -/
def NamespaceKernel.Enters (g : NamespaceKernel ι) (place : String → CloneFlag → ι)
    (t : NamespaceSets) : Prop :=
  List.Forall₂ (fun p path => g.enters p.2 p.1 = some (place path p.1) ∨
    p.1 = .newUser ∧ g.enters p.2 p.1 = none) t.toJoin t.opened

/-- Which of the files `setns` takes. -/
def NamespaceKernel.taken (g : NamespaceKernel ι) (t : NamespaceSets) : List Bool :=
  t.toJoin.map fun p => (g.enters p.2 p.1).isSome

/-- The namespace at the path of an entry. -/
def LinuxNamespace.place (place : String → CloneFlag → ι) (ns : LinuxNamespace) : Option ι :=
  if ns.path = "" then none else some (place ns.path ns.flag)

/-- The last path that a list has for a kind, and whether it asks for a new namespace. -/
def listedPath (place : String → CloneFlag → ι) (nses : List LinuxNamespace) (k : CloneFlag) :
    Option ι :=
  lastWrite (fun ns => if ns.flag = k then ns.place place else none) nses

/-- The last path that a list has for a user namespace and that `setns` takes, where `taken` tells
this of each entry with a path. -/
def takenPath (place : String → CloneFlag → ι) (nses : List LinuxNamespace) (taken : List Bool) :
    Option ι :=
  lastWrite (fun e => if e.1.flag = .newUser ∧ e.2 = true then e.1.place place else none)
    ((joining nses).zip taken)

def listedNew (g : NamespaceKernel ι) (nses : List LinuxNamespace) (k : CloneFlag) : Option ι :=
  if ∃ ns ∈ nses, ns.path = "" ∧ ns.flag = k then some (g.fresh k) else none

/-- The file of a process's namespace. -/
def namespaceFile (pid : Nat) (name : String) : String :=
  "/proc/" ++ toString pid ++ "/ns/" ++ name

/-- What the links of a process tell about its namespaces. -/
def NamespaceGuest.Shows (ng : NamespaceGuest) (link : CloneFlag → ι → String) (pid : Nat)
    (m : Member CloneFlag ι) : Prop :=
  ∀ i k name, (i, k) ∈ NAMESPACES → TYPETONAME.lookup i = some name →
    ng.readLink (namespaceFile pid name) = .ok (link k (m.own k))

def StartArgs.made (a : StartArgs) (g : NamespaceKernel ι) (k : CloneFlag) : Option ι :=
  if k ∈ a.toNew then some (g.fresh k) else none

section
variable {ι : Type} {g : NamespaceKernel ι} {a : StartArgs} {m : Member CloneFlag ι}
  {is : List Instr} {k : CloneFlag}

theorem moves_of_routine {x : Instr} (h : x.routine = true) : x.moves g = [] := by
  cases x with
  | call c =>
    cases c with
    | unshare flags => cases h
    | setns fd flag => cases h
    | _ => rfl
  | fork => cases h
  | _ => rfl

theorem flatMap_moves (h : ∀ i ∈ is, i.routine = true) : is.flatMap (Instr.moves g) = [] :=
  List.flatMap_eq_nil_iff.2 fun i hi => moves_of_routine (h i hi)

theorem flatMap_onlyIf (c : Prop) [Decidable c] :
    (onlyIf c is).flatMap (Instr.moves g) = onlyIf c (is.flatMap (Instr.moves g)) := by
  rw [onlyIf, onlyIf]
  split
  · rfl
  · rfl

theorem lastWrite_joinMove (p : CloneFlag × RawFd) : lastWrite (Move.enters k) (joinMove g p) =
    if p.1 = k then g.enters p.2 p.1 else none := by
  rw [joinMove]
  split
  · rename_i h
    rw [h, ite_self]
    rfl
  · rename_i n h
    rw [lastWrite_singleton, h]
    rfl

/-- The loop joins in the order of the list, except for mount namespaces. -/
theorem lastWrite_joinLoop (toJoin : List (CloneFlag × RawFd)) :
    lastWrite (Move.enters k) ((joinLoop toJoin).flatMap (Instr.moves g)) =
      if k = .newNs then none
      else lastWrite (fun p => if p.1 = k then g.enters p.2 p.1 else none) toJoin := by
  induction toJoin with
  | nil => exact (ite_self _).symm
  | cons p toJoin ih =>
    rw [joinLoop, lastWrite_cons]
    by_cases hns : p.1 = .newNs
    · rw [if_pos hns, ih]
      by_cases hk : k = .newNs
      · rw [if_pos hk, if_pos hk]
      · have hne : p.1 ≠ k := fun he => hk (he.symm.trans hns)
        rw [if_neg hk, if_neg hk, if_neg hne, Option.or_none]
    · have hmoves : (List.flatten [[.call (.setns p.2 p.1), .call (.closeFd p.2)],
          onlyIf (p.1 = .newUser) (setid 0 0), joinLoop toJoin]).flatMap (Instr.moves g) =
            joinMove g p ++ (joinLoop toJoin).flatMap (Instr.moves g) := by
        have hid : (onlyIf (p.1 = .newUser) (setid 0 0)).flatMap (Instr.moves g) = [] :=
          flatMap_moves (forall_mem_onlyIf.2 fun _ => forall_mem_setid 0 0)
        simp [hid, Instr.moves, SysCall.moves]
      rw [if_neg hns, hmoves, lastWrite_append, ih, lastWrite_joinMove]
      by_cases hk : k = .newNs
      · have hne : p.1 ≠ k := fun he => hns (he.trans hk)
        rw [if_pos hk, if_pos hk, if_neg hne, Option.none_or]
      · rw [if_neg hk, if_neg hk]

theorem mountFd_eq (a : StartArgs) : a.mountFd =
    lastWrite (fun p => if p.1 = .newNs then some p.2 else none) a.toJoin := by
  rw [StartArgs.mountFd, lastWrite, ← List.getLast?_map]
  congr 1
  induction a.toJoin with
  | nil => rfl
  | cons p toJoin ih =>
    by_cases h : p.1 = .newNs
    · simp [h, ih]
    · simp [h, ih]

/-- The moves of the container process, behind the fork from the agent. -/
theorem containerPath_moves : a.containerPath.flatMap (Instr.moves g) = List.flatten
    [onlyIf a.userns [.make {.newUser} g.fresh], (joinLoop a.toJoin).flatMap (Instr.moves g),
      [.make (a.toNew.erase .newUser) g.fresh], onlyIf a.pidns [.fork],
      (enterMountNamespace a.mountFd).flatMap (Instr.moves g)] := by
  have hlimits : (processLimits a.process).flatMap (Instr.moves g) = [] := by
    cases a.process with
    | none => rfl
    | some p =>
      apply List.flatMap_eq_nil_iff.2
      rw [processLimits, List.forall_mem_append, forall_mem_onlyIf, List.forall_mem_map]
      exact ⟨fun _ i hi => by cases List.mem_singleton.1 hi; rfl, fun _ _ => rfl⟩
  have hsetup : (startAfterJoin a).flatMap (Instr.moves g) = [] := by
    apply flatMap_moves
    rw [startAfterJoin, List.forall_mem_append, startExec, List.forall_mem_append,
      forall_mem_onlyIf]
    refine ⟨forall_mem_startSetup a, fun _ => ?_, ?_⟩
    · simp only [List.forall_mem_cons, List.not_mem_nil, IsEmpty.forall_iff, implies_true, and_true]
      exact ⟨rfl, rfl, rfl⟩
    · rw [List.forall_mem_singleton]
      rfl
  have hid : (setid 0 0).flatMap (Instr.moves g) = [] := flatMap_moves (forall_mem_setid 0 0)
  have hroot : (onlyIf (.newNs ∈ a.toNew) [.call a.switchRoot, .call (.setSysctls a.linux.sysctl),
      .call (.chdir "/")]).flatMap (Instr.moves g) = [] := by
    apply flatMap_moves
    rw [forall_mem_onlyIf, StartArgs.switchRoot]
    split
    · simp [Instr.routine, SysCall.routine, SysCall.limits, SysCall.admits, SysCall.populates]
    · simp [Instr.routine, SysCall.routine, SysCall.limits, SysCall.admits, SysCall.populates]
  rw [StartArgs.switchRoot] at hroot
  simp [StartArgs.containerPath, joinNamespacesChild, joinNamespacesContainer, hroot,
    flatMap_onlyIf, hlimits, hsetup, hid, Instr.moves, SysCall.moves, writeSync]

/-- The namespaces of the container process: a mount namespace that is joined comes last, a user
namespace that is made comes first, and another pid namespace takes a second child. -/
def StartArgs.namespace (a : StartArgs) (g : NamespaceKernel ι) (m : Member CloneFlag ι)
    (k : CloneFlag) : ι :=
  match k with
  | .newNs => ((a.mountFd.bind fun fd => g.enters fd .newNs).or (a.made g .newNs)).getD
      (m.child .newNs)
  | .newUser => ((a.joined g .newUser).or (if a.userns then some (g.fresh .newUser) else none)).getD
      (m.child .newUser)
  | .newPid => if a.pidns then ((a.made g .newPid).or (a.joined g .newPid)).getD (m.child .newPid)
      else m.child .newPid
  | k => ((a.made g k).or (a.joined g k)).getD (m.child k)

theorem lastWrite_onlyIf (c : Prop) [Decidable c] (xs : List (Move CloneFlag ι)) :
    lastWrite (Move.enters k) (onlyIf c xs) = if c then lastWrite (Move.enters k) xs else none := by
  rw [onlyIf]
  split
  · rfl
  · rfl

theorem lastWrite_enterMountNamespace (fd : Option RawFd) :
    lastWrite (Move.enters k) ((enterMountNamespace fd).flatMap (Instr.moves g)) =
      if k = .newNs then fd.bind fun fd => g.enters fd .newNs else none := by
  cases fd with
  | none => exact (ite_self _).symm
  | some fd =>
    have hmoves : (enterMountNamespace (some fd)).flatMap (Instr.moves g) =
        joinMove g (.newNs, fd) := List.append_nil _
    rw [hmoves, lastWrite_joinMove]
    simp only [eq_comm (a := k), Option.bind_some]

/-- What a container process enters, except for a pid namespace, in the order of its calls. -/
theorem lastWrite_containerPath : lastWrite (Move.enters k)
    (a.containerPath.flatMap (Instr.moves g)) =
      (((if k = .newNs then a.mountFd.bind fun fd => g.enters fd .newNs else none).or
        (if k = .newUser then none else a.made g k)).or
          (if k = .newNs then none else a.joined g k)).or
            (if a.userns ∧ k = .newUser then some (g.fresh k) else none) := by
  have hmake : lastWrite (Move.enters k) [.make (a.toNew.erase .newUser) g.fresh] =
      if k = .newUser then none else a.made g k := by
    rw [lastWrite_singleton, Move.enters, StartArgs.made]
    by_cases hk : k = .newUser
    · rw [if_pos hk, hk, if_neg (Finset.notMem_erase _ _)]
    · rw [if_neg hk]
      simp only [Finset.mem_erase, ne_eq, hk, not_false_eq_true, true_and]
  have huser : lastWrite (Move.enters k) (onlyIf a.userns [.make {.newUser} g.fresh]) =
      if a.userns ∧ k = .newUser then some (g.fresh k) else none := by
    rw [lastWrite_onlyIf, lastWrite_singleton, Move.enters]
    simp only [Finset.mem_singleton, ite_and]
  have hfork : lastWrite (Move.enters k) (onlyIf a.pidns [(.fork : Move CloneFlag ι)]) = none := by
    rw [lastWrite_onlyIf, lastWrite_singleton, Move.enters, ite_self]
  simp only [containerPath_moves, List.flatten_cons, List.flatten_nil, List.append_nil,
    lastWrite_append, hmake, huser, hfork, lastWrite_joinLoop, lastWrite_enterMountNamespace,
    Option.or_none, Option.or_assoc]
  rfl

theorem fork_notMem_joinMove (p : CloneFlag × RawFd) : .fork ∉ joinMove g p := by
  rw [joinMove]
  split
  · exact List.not_mem_nil
  · simp

theorem fork_notMem_joinLoop (toJoin : List (CloneFlag × RawFd)) :
    .fork ∉ (joinLoop toJoin).flatMap (Instr.moves g) := by
  induction toJoin with
  | nil => exact List.not_mem_nil
  | cons p toJoin ih =>
    rw [joinLoop]
    split
    · exact ih
    · have hid : (onlyIf (p.1 = .newUser) (setid 0 0)).flatMap (Instr.moves g) = [] :=
        flatMap_moves (forall_mem_onlyIf.2 fun _ => forall_mem_setid 0 0)
      simp [hid, Instr.moves, SysCall.moves, fork_notMem_joinMove, ih]

theorem fork_notMem_enterMountNamespace (fd : Option RawFd) :
    .fork ∉ (enterMountNamespace fd).flatMap (Instr.moves g) := by
  cases fd with
  | none => exact List.not_mem_nil
  | some fd => simp [enterMountNamespace, Instr.moves, SysCall.moves, fork_notMem_joinMove]

theorem deferred_newPid : CloneFlag.Deferred .newPid := rfl

/-- Only a second child gets into another pid namespace than the agent. -/
theorem containerMember_pid : (containerMember g a m).own .newPid =
    if a.pidns then ((a.made g .newPid).or (a.joined g .newPid)).getD (m.child .newPid)
      else m.child .newPid := by
  rw [containerMember, containerPath_moves]
  cases hn : a.pidns with
  | true =>
    have hsplit : .fork :: List.flatten [onlyIf a.userns [.make {.newUser} g.fresh],
        (joinLoop a.toJoin).flatMap (Instr.moves g), [.make (a.toNew.erase .newUser) g.fresh],
        onlyIf (true = true) [.fork], (enterMountNamespace a.mountFd).flatMap (Instr.moves g)] =
      List.flatten [[.fork], onlyIf a.userns [.make {.newUser} g.fresh],
        (joinLoop a.toJoin).flatMap (Instr.moves g), [.make (a.toNew.erase .newUser) g.fresh]] ++
          .fork :: (enterMountNamespace a.mountFd).flatMap (Instr.moves g) := by
      simp [onlyIf]
    rw [hsplit, Member.own_of_fork _ deferred_newPid (fork_notMem_enterMountNamespace _),
      if_pos rfl]
    have hmake : lastWrite (Move.enters .newPid) [.make (a.toNew.erase .newUser) g.fresh] =
        a.made g .newPid := by
      rw [lastWrite_singleton, Move.enters, StartArgs.made]
      simp
    have huser : lastWrite (Move.enters .newPid) (onlyIf a.userns [.make {.newUser} g.fresh]) =
        none := by
      rw [lastWrite_onlyIf]
      exact ite_self _
    have hfork : lastWrite (Move.enters .newPid) [(.fork : Move CloneFlag ι)] = none := rfl
    simp only [List.flatten_cons, List.flatten_nil, List.append_nil, lastWrite_append, hmake,
      huser, hfork, lastWrite_joinLoop, Option.or_none]
    rfl
  | false =>
    have hrest : .fork ∉ List.flatten [onlyIf a.userns [.make {.newUser} g.fresh],
        (joinLoop a.toJoin).flatMap (Instr.moves g), [.make (a.toNew.erase .newUser) g.fresh],
        onlyIf (false = true) [.fork],
        (enterMountNamespace a.mountFd).flatMap (Instr.moves g)] := by
      have huser : (.fork : Move CloneFlag ι) ∉ onlyIf a.userns [.make {.newUser} g.fresh] := by
        rw [onlyIf]
        split
        · simp
        · exact List.not_mem_nil
      simp only [List.flatten_cons, List.flatten_nil, List.append_nil, List.mem_append, not_or]
      exact ⟨huser, fork_notMem_joinLoop _, by simp, by simp [onlyIf],
        fork_notMem_enterMountNamespace _⟩
    exact Member.own_of_fork [] deferred_newPid hrest

theorem containerMember_own (g : NamespaceKernel ι) (a : StartArgs) (m : Member CloneFlag ι)
    (k : CloneFlag) : (containerMember g a m).own k = a.namespace g m k := by
  by_cases hk : k = .newPid
  · rw [hk]
    exact containerMember_pid
  · have hmoves : containerMember g a m =
        Member.moves CloneFlag.Deferred ⟨m.child, m.child⟩
          (a.containerPath.flatMap (Instr.moves g)) := rfl
    have hown : ¬ k.Deferred := hk
    rw [hmoves, Member.own_moves hown rfl, lastWrite_containerPath]
    cases k with
    | newPid => exact absurd rfl hk
    | newUser => simp [StartArgs.namespace]
    | newNs => simp [StartArgs.namespace]
    | _ => simp [StartArgs.namespace]

variable {ng : NamespaceGuest} {t t' : NamespaceSets} {ns : LinuxNamespace}
  {nses pre : List LinuxNamespace}

theorem listedPath_of_ne {place : String → CloneFlag → ι} (h : ∀ ns ∈ nses, ns.flag ≠ k) :
    listedPath place nses k = none :=
  lastWrite_eq_none_iff.2 fun ns hns => if_neg (h ns hns)

theorem listedNew_of_ne (h : ∀ ns ∈ nses, ns.flag ≠ k) : listedNew g nses k = none := by
  apply if_neg
  rintro ⟨ns, hns, -, hflag⟩
  exact h ns hns hflag

theorem addNamespace_pidns (h : addNamespace ng ns t = (.ok (), t')) (hk : ns.Known) :
    t'.pidns = (t.pidns || ns.flag = .newPid) := by
  rw [addNamespace, hk.lookup] at h
  dsimp only at h
  by_cases hp : ns.path = ""
  · rw [if_pos hp] at h
    cases h
    rfl
  · rw [if_neg hp] at h
    cases hf : ng.openFile t.opened ns.path with
    | ok fd =>
      rw [Act.bind_ok (Act.read_apply _), hf] at h
      cases h
      rfl
    | error e =>
      rw [Act.bind_ok (Act.read_apply _), hf] at h
      cases e with
      | none => cases h
      | some e => cases h

/-- A loop that gets through has collected all the namespaces. -/
theorem forM_addNamespace_ok (h : Collected pre t)
    (hrun : nses.forM (addNamespace ng) t = (.ok (), t')) : (∀ ns ∈ nses, ns.Known) ∧
      Collected (pre ++ nses) t' ∧ t'.pidns = (t.pidns || nses.any (·.flag = .newPid)) := by
  induction nses generalizing pre t with
  | nil =>
    cases hrun
    rw [List.append_nil]
    exact ⟨List.forall_mem_nil _, h, (Bool.or_false _).symm⟩
  | cons ns nses ih =>
    have hcons : (ns :: nses).forM (addNamespace ng) =
        addNamespace ng ns >>= fun _ => nses.forM (addNamespace ng) := rfl
    rw [hcons, Act.bind_apply] at hrun
    rcases hstep : addNamespace ng ns t with ⟨o, u⟩
    rcases addNamespace_cases h hstep with ⟨rfl, hk, hnext⟩ | ⟨ho, rfl⟩
    · rw [hstep] at hrun
      obtain ⟨hknown, hend, hpid⟩ := ih hnext hrun
      rw [List.append_assoc, List.singleton_append] at hend
      refine ⟨List.forall_mem_cons.2 ⟨hk, hknown⟩, hend, ?_⟩
      rw [hpid, addNamespace_pidns hstep hk, List.any_cons, Bool.or_assoc]
    · rw [hstep] at hrun
      cases o with
      | ok u => exact absurd rfl ho
      | err e => cases hrun
      | panic => cases hrun

theorem Collected.flags (h : Collected nses t) :
    List.Forall₂ (fun p ns => p.1 = LinuxNamespace.flag ns) t.toJoin (joining nses) := by
  have heq : List.Forall₂ (· = ·) (t.toJoin.map Prod.fst)
      ((joining nses).map LinuxNamespace.flag) := by
    rw [List.forall₂_eq_eq_eq, h.joined]
  exact List.forall₂_map_right_iff.1 (List.forall₂_map_left_iff.1 heq)

theorem NamespaceKernel.Opens.enters {place : String → CloneFlag → ι} (hg : g.Opens place t) :
    g.Enters place t := hg.imp fun _ _ h => .inl h

theorem Collected.entered {place : String → CloneFlag → ι} (h : Collected nses t)
    (hg : g.Enters place t) : List.Forall₂ (fun p ns => p.1 = LinuxNamespace.flag ns ∧
      (g.enters p.2 p.1 = some (place ns.path p.1) ∨ p.1 = .newUser ∧ g.enters p.2 p.1 = none))
      t.toJoin (joining nses) := by
  rw [NamespaceKernel.Enters, h.files] at hg
  exact forall₂_and_iff.2 ⟨h.flags, List.forall₂_map_right_iff.1 hg⟩

/-- The paths of a list, one by one. -/
theorem listedPath_eq {place : String → CloneFlag → ι} : listedPath place nses k =
    lastWrite (fun ns => if ns.flag = k then some (place ns.path ns.flag) else none)
      (joining nses) := by
  rw [joining, lastWrite_filter, listedPath]
  congr 1
  funext ns
  rw [LinuxNamespace.place]
  by_cases hp : ns.path = ""
  · rw [if_pos hp, if_neg (not_not.2 hp), ite_self]
  · rw [if_neg hp, if_pos hp]

/-- What a list has a process join last, of a kind that is not refused. -/
theorem Collected.joined_of_ne {place : String → CloneFlag → ι} (h : Collected nses t)
    (ha : a.toJoin = t.toJoin) (hg : g.Enters place t) (hk : k ≠ .newUser) :
    a.joined g k = listedPath place nses k := by
  rw [StartArgs.joined, ha, listedPath_eq]
  apply lastWrite_forall₂
  apply (h.entered hg).imp
  intro p ns ⟨hflag, henters⟩
  rw [← hflag]
  by_cases hp : p.1 = k
  · have hentered := henters.resolve_right fun hu => hk (hp.symm.trans hu.1)
    rw [if_pos hp, if_pos hp, hentered]
  · rw [if_neg hp, if_neg hp]

theorem forall₂_zip_map {α β γ : Type} {R : α → β → Prop} {f : α → γ} {l : List α} {r : List β}
    (h : List.Forall₂ R l r) :
    List.Forall₂ (fun a e => R a e.1 ∧ e.2 = f a) l (r.zip (l.map f)) := by
  induction h with
  | nil => exact .nil
  | cons hab _ ih => exact .cons ⟨hab, rfl⟩ ih

theorem joining_place {place : String → CloneFlag → ι} (h : ns ∈ joining nses) :
    ns.place place = some (place ns.path ns.flag) :=
  if_neg (of_decide_eq_true (List.mem_filter.1 h).2)

/-- The user namespace that is joined last is the last that is taken. -/
theorem Collected.joined_user {place : String → CloneFlag → ι} (h : Collected nses t)
    (ha : a.toJoin = t.toJoin) (hg : g.Enters place t) :
    a.joined g .newUser = takenPath place nses (g.taken t) := by
  have hmem : List.Forall₂ (fun ns p => ns ∈ joining nses ∧ p.1 = LinuxNamespace.flag ns ∧
      (g.enters p.2 p.1 = some (place ns.path p.1) ∨
        p.1 = .newUser ∧ g.enters p.2 p.1 = none)) (joining nses) t.toJoin :=
    (List.forall₂_and_left _ _).2 ⟨fun ns hns => hns, List.Forall₂.flip (h.entered hg)⟩
  rw [StartArgs.joined, ha, takenPath]
  apply lastWrite_forall₂
  apply (forall₂_zip_map (f := fun p => (g.enters p.2 p.1).isSome) hmem.flip).imp
  intro p e ⟨⟨hin, hflag, henters⟩, htaken⟩
  rw [joining_place hin, htaken, ← hflag]
  by_cases hp : p.1 = .newUser
  · rcases henters with hentered | ⟨-, hno⟩
    · rw [if_pos hp, hentered, if_pos ⟨hp, rfl⟩]
    · rw [if_pos hp, hno, if_neg fun hu => Bool.false_ne_true hu.2]
  · rw [if_neg hp, if_neg fun hu => hp hu.1]

/-- What a list has a process join last, where nothing is refused. -/
theorem Collected.joined_eq {place : String → CloneFlag → ι} (h : Collected nses t)
    (ha : a.toJoin = t.toJoin) (hg : g.Opens place t) :
    a.joined g k = listedPath place nses k := by
  have hplaces : List.Forall₂ (fun p (ns : LinuxNamespace) =>
      p.1 = ns.flag ∧ g.enters p.2 p.1 = some (place ns.path p.1)) t.toJoin (joining nses) := by
    rw [NamespaceKernel.Opens, h.files] at hg
    exact forall₂_and_iff.2 ⟨h.flags, List.forall₂_map_right_iff.1 hg⟩
  rw [StartArgs.joined, ha, listedPath_eq]
  apply lastWrite_forall₂
  apply hplaces.imp
  intro p ns ⟨hflag, hplace⟩
  rw [hplace, hflag]

theorem Collected.made_eq (h : Collected nses t) (ha : a.toNew = t.toNew) :
    a.made g k = listedNew g nses k := by
  rw [StartArgs.made, listedNew, ha]
  simp only [h.new]

/-- The loop and the mount namespace at the end join the same. -/
theorem NamespaceKernel.Enters.mountFd_bind {place : String → CloneFlag → ι}
    (hg : g.Enters place t) (ha : a.toJoin = t.toJoin) :
    (a.mountFd.bind fun fd => g.enters fd .newNs) = a.joined g .newNs := by
  have hall : ∀ p ∈ t.toJoin, p.1 = .newNs → (g.enters p.2 p.1).isSome := by
    have hsome : List.Forall₂ (fun p path => (p.1 = .newNs → (g.enters p.2 p.1).isSome = true) ∧
        (g.enters p.2 p.1 = some (place path p.1) ∨ p.1 = .newUser ∧ g.enters p.2 p.1 = none))
        t.toJoin t.opened := by
      apply hg.imp
      intro p path h
      refine ⟨fun hns => ?_, h⟩
      rcases h with h | ⟨hu, -⟩
      · rw [h, Option.isSome_some]
      · cases hns.symm.trans hu
    exact ((List.forall₂_and_left _ _).1 hsome).1
  rw [mountFd_eq, lastWrite_bind, StartArgs.joined]
  · congr 1
    funext p
    by_cases hp : p.1 = .newNs
    · rw [if_pos hp, if_pos hp, hp, Option.bind_some]
    · rw [if_neg hp, if_neg hp, Option.bind_none]
  · intro p hp fd hfd
    obtain ⟨hns, rfl⟩ : p.1 = .newNs ∧ p.2 = fd := by
      rw [Option.ite_none_right_eq_some, Option.some.injEq] at hfd
      exact hfd
    exact hns ▸ hall p (ha ▸ hp) hns

/-- The namespaces of a process for any list: of a path and a new one for the same kind, mount and
user namespaces take the path, and the other kinds the new one. -/
theorem containerMember_joined {place : String → CloneFlag → ι}
    (hrun : nses.forM (addNamespace ng) .empty = (.ok (), t)) (ha : a.Takes t)
    (hg : g.Enters place t) (k : CloneFlag) : (containerMember g a m).own k =
      (if k = .newNs ∨ k = .newUser then (a.joined g k).or (listedNew g nses k)
        else (listedNew g nses k).or (a.joined g k)).getD (m.child k) := by
  obtain ⟨hknown, hall, hpidns⟩ := forM_addNamespace_ok .empty hrun
  rw [List.nil_append] at hall
  have hm (k : CloneFlag) : a.made g k = listedNew g nses k := hall.made_eq ha.toNew
  rw [containerMember_own, ← hm]
  cases k with
  | newNs => rw [StartArgs.namespace, hg.mountFd_bind ha.toJoin, if_pos (.inl rfl)]
  | newUser =>
    have huser : (if a.userns then some (g.fresh .newUser) else none) = a.made g .newUser := by
      rw [ha.userns, StartArgs.made, ha.toNew]
      simp only [decide_eq_true_eq]
    rw [StartArgs.namespace, huser, if_pos (.inr rfl)]
  | newPid =>
    have hkind : ¬ ((.newPid : CloneFlag) = .newNs ∨ (.newPid : CloneFlag) = .newUser) := by decide
    have hne : (.newPid : CloneFlag) ≠ .newUser := by decide
    rw [StartArgs.namespace, if_neg hkind]
    cases hn : a.pidns with
    | true => rfl
    | false =>
      have hno : ∀ ns ∈ nses, ns.flag ≠ .newPid := by
        intro ns hns hflag
        have hany : nses.any (·.flag = .newPid) = true :=
          List.any_eq_true.2 ⟨ns, hns, decide_eq_true hflag⟩
        rw [ha.pidns, hpidns, hany, Bool.or_true] at hn
        cases hn
      rw [hall.joined_of_ne ha.toJoin hg hne, hm, listedPath_of_ne hno, listedNew_of_ne hno]
      rfl
  | newIpc => rfl
  | newNet => rfl
  | newUts => rfl
  | newCgroup => rfl

theorem containerMember_collected {place : String → CloneFlag → ι}
    (hrun : nses.forM (addNamespace ng) .empty = (.ok (), t)) (ha : a.Takes t)
    (hg : g.Opens place t) (k : CloneFlag) : (containerMember g a m).own k =
      (if k = .newNs ∨ k = .newUser then (listedPath place nses k).or (listedNew g nses k)
        else (listedNew g nses k).or (listedPath place nses k)).getD (m.child k) := by
  obtain ⟨-, hall, -⟩ := forM_addNamespace_ok .empty hrun
  rw [List.nil_append] at hall
  rw [containerMember_joined hrun ha hg.enters, hall.joined_eq ha.toJoin hg]

/-- The namespaces of a process whose list names each type once are those that it names, in new
ones where it names no path, and the agent's for all other kinds. -/
theorem containerMember_listed {place : String → CloneFlag → ι}
    (hrun : nses.forM (addNamespace ng) .empty = (.ok (), t)) (ha : a.Takes t)
    (hg : g.Opens place t) (hnodup : (nses.map LinuxNamespace.type).Nodup) :
    (∀ ns ∈ nses, (containerMember g a m).own ns.flag =
      if ns.path = "" then g.fresh ns.flag else place ns.path ns.flag) ∧
    ∀ k, (∀ ns ∈ nses, ns.flag ≠ k) → (containerMember g a m).own k = m.child k := by
  obtain ⟨hknown, -, -⟩ := forM_addNamespace_ok .empty hrun
  have hflags : (nses.map LinuxNamespace.flag).Nodup := (nodup_flag_iff hknown).2 hnodup
  constructor
  · intro ns hns
    have hpath : listedPath place nses ns.flag = ns.place place := lastWrite_of_nodup hflags hns
    rw [containerMember_collected hrun ha hg, hpath, LinuxNamespace.place]
    by_cases hp : ns.path = ""
    · have hnew : listedNew g nses ns.flag = some (g.fresh ns.flag) := if_pos ⟨ns, hns, hp, rfl⟩
      rw [hnew, if_pos hp, if_pos hp, Option.none_or, Option.or_none, ite_self, Option.getD_some]
    · have hnew : listedNew g nses ns.flag = none := by
        apply if_neg
        rintro ⟨ns', hns', hp', hflag⟩
        exact hp (List.inj_on_of_nodup_map hflags hns' hns hflag ▸ hp')
      rw [hnew, if_neg hp, if_neg hp, Option.none_or, Option.or_none, ite_self, Option.getD_some]
  · intro k hno
    rw [containerMember_collected hrun ha hg, listedPath_of_ne hno, listedNew_of_ne hno,
      Option.or_none, ite_self, Option.getD_none]

theorem named_of_flag (k : CloneFlag) : ∃ i name, (i, k) ∈ NAMESPACES ∧
    TYPETONAME.lookup i = some name ∧ NAMESPACES.lookup i = some k := by
  cases k with
  | newUser => exact ⟨"user", "user", by decide, rfl, rfl⟩
  | newIpc => exact ⟨"ipc", "ipc", by decide, rfl, rfl⟩
  | newPid => exact ⟨"pid", "pid", by decide, rfl, rfl⟩
  | newNet => exact ⟨"network", "net", by decide, rfl, rfl⟩
  | newNs => exact ⟨"mount", "mnt", by decide, rfl, rfl⟩
  | newUts => exact ⟨"uts", "uts", by decide, rfl, rfl⟩
  | newCgroup => exact ⟨"cgroup", "cgroup", by decide, rfl, rfl⟩

theorem lookup_namespaces : ∀ e ∈ NAMESPACES, NAMESPACES.lookup e.1 = some e.2 ∧
    (TYPETONAME.lookup e.1).isSome := by
  decide

/-- An exec joins those of the container's namespaces that are not the agent's. -/
theorem processNamespaces_ok {link : CloneFlag → ι → String} {init agent : Member CloneFlag ι}
    {initPid : Nat} {keys : List String} (hinit : ng.Shows link initPid init)
    (hagent : ng.Shows link ng.getpid agent)
    (hlink : ∀ k n n', components (link k n).toList = components (link k n').toList → n = n')
    (hkeys : ∀ i ∈ keys, i ∈ NAMESPACES.map Prod.fst)
    (h : processNamespaces ng initPid keys = .ok nses) :
    (nses.map LinuxNamespace.type).Sublist keys ∧
      (∀ ns ∈ nses, init.own ns.flag ≠ agent.own ns.flag ∧ ∃ name,
        TYPETONAME.lookup ns.type = some name ∧ ns.path = namespaceFile initPid name) ∧
      ∀ i ∈ keys, ∀ k, (i, k) ∈ NAMESPACES → init.own k ≠ agent.own k →
        ∃ ns ∈ nses, ns.type = i := by
  induction keys generalizing nses with
  | nil =>
    cases h
    exact ⟨.slnil, List.forall_mem_nil _, List.forall_mem_nil _⟩
  | cons i keys ih =>
    obtain ⟨e, he, rfl⟩ := List.mem_map.1 (hkeys i List.mem_cons_self)
    obtain ⟨hflag, hname⟩ := lookup_namespaces e he
    obtain ⟨name, hname⟩ := Option.isSome_iff_exists.1 hname
    have hread := hinit e.1 e.2 name he hname
    have hread' := hagent e.1 e.2 name he hname
    rw [namespaceFile] at hread hread'
    rw [processNamespaces, hname] at h
    simp only [Outcome.ofUnwrap_some, Outcome.ok_bind, hread, hread', ioOutcome] at h
    obtain ⟨rest, hrest, h⟩ := Outcome.bind_eq_ok.1 h
    obtain ⟨hsub, hall, hcomplete⟩ := ih (fun i hi => hkeys i (List.mem_cons_of_mem _ hi)) hrest
    have hkind (k : CloneFlag) (hk : (e.1, k) ∈ NAMESPACES) : k = e.2 := by
      have hlookup := (lookup_namespaces _ hk).1
      exact Option.some.inj (hlookup.symm.trans hflag)
    by_cases hsame : init.own e.2 = agent.own e.2
    · rw [if_pos (by rw [hsame])] at h
      cases h
      refine ⟨hsub.cons _, hall, List.forall_mem_cons.2 ⟨fun k hk hne => ?_, hcomplete⟩⟩
      rw [hkind k hk] at hne
      exact absurd hsame hne
    · rw [if_neg fun hc => hsame (hlink _ _ _ hc)] at h
      cases h
      have hns : LinuxNamespace.flag ⟨e.1, namespaceFile initPid name⟩ = e.2 := by
        rw [LinuxNamespace.flag, hflag, Option.getD_some]
      refine ⟨hsub.cons_cons _, List.forall_mem_cons.2 ⟨⟨?_, name, hname, rfl⟩, hall⟩,
        List.forall_mem_cons.2 ⟨fun _ _ _ => ⟨_, List.mem_cons_self, rfl⟩, fun j hj k hk hne => ?_⟩⟩
      · exact hns ▸ hsame
      · obtain ⟨ns, hmem, htype⟩ := hcomplete j hj k hk hne
        exact ⟨ns, List.mem_cons_of_mem _ hmem, htype⟩

theorem namespaceFile_ne (pid : Nat) (name : String) : namespaceFile pid name ≠ "" := by
  intro h
  have hlist := congrArg String.toList h
  simp [namespaceFile] at hlist

end

/-- The init process of a container: a kind that its list does not name stays the agent's, and
where it names both a path and a new namespace, mount and user namespaces take the last path, and
the other kinds a new one. Of the paths for user namespaces it is the last that `setns` takes. -/
theorem containerMember_init {ι : Type} {g : NamespaceKernel ι} {ng : NamespaceGuest}
    {keys : List String} {linux : Grpc.Linux} {initPid : Nat} {t : NamespaceSets} {a : StartArgs}
    {place : String → CloneFlag → ι}
    (hrun : startNamespaces ng keys linux true initPid .empty = (.ok (), t)) (ha : a.Takes t)
    (hg : g.Enters place t) (m : Member CloneFlag ι) :
    (∀ k, k ≠ .newUser → (containerMember g a m).own k =
      (if k = .newNs
        then (listedPath place linux.namespaces k).or (listedNew g linux.namespaces k)
        else (listedNew g linux.namespaces k).or (listedPath place linux.namespaces k)).getD
          (m.child k)) ∧
    (containerMember g a m).own .newUser =
      ((takenPath place linux.namespaces (g.taken t)).or
        (listedNew g linux.namespaces .newUser)).getD (m.child .newUser) := by
  rw [startNamespaces_init] at hrun
  obtain ⟨-, hall, -⟩ := forM_addNamespace_ok .empty hrun
  rw [List.nil_append] at hall
  constructor
  · intro k hk
    rw [containerMember_joined hrun ha hg, hall.joined_of_ne ha.toJoin hg hk]
    simp only [hk, or_false]
  · rw [containerMember_joined hrun ha hg, hall.joined_user ha.toJoin hg, if_pos (.inr rfl)]

/-- The network namespace that is asked for twice, by path and as a new one. -/
theorem containerMember_init_twice :
    (containerMember ⟨fun _ _ => some "/run/netns/pod", fun _ => "new"⟩
      { podStart with
        toNew := {.newNet}, toJoin := [(.newNet, 3)], pidns := false, userns := false }
      ⟨fun _ => "agent", fun _ => "agent"⟩).own .newNet = "new" := by
  have hrun : startNamespaces ⟨.ok, 1, fun _ _ => .ok 3⟩ [] twiceLinux true 1 .empty =
      (.ok (), ⟨{.newNet}, [(.newNet, 3)], false, ["/run/netns/pod"]⟩) := rfl
  have hg : NamespaceKernel.Enters ⟨fun _ _ => some "/run/netns/pod", fun _ => "new"⟩
      (fun path _ => path) ⟨{.newNet}, [(.newNet, 3)], false, ["/run/netns/pod"]⟩ :=
    .cons (.inl rfl) .nil
  exact (containerMember_init hrun ⟨rfl, rfl, rfl, by decide⟩ hg _).1 .newNet (by decide)

/-- Another process of the container gets into the namespaces of its init process, for every kind
and any order of the table, also where the init process has the agent's. -/
theorem containerMember_exec {ι : Type} {g : NamespaceKernel ι} {ng : NamespaceGuest}
    {keys : List String} {linux : Grpc.Linux} {initPid : Nat} {t : NamespaceSets} {a : StartArgs}
    {place : String → CloneFlag → ι} {link : CloneFlag → ι → String}
    {init agent : Member CloneFlag ι}
    (hrun : startNamespaces ng keys linux false initPid .empty = (.ok (), t)) (ha : a.Takes t)
    (hg : g.Opens place t) (hkeys : keys.Perm (NAMESPACES.map Prod.fst))
    (hinit : ng.Shows link initPid init) (hagent : ng.Shows link ng.getpid agent)
    (hlink : ∀ k n n', components (link k n).toList = components (link k n').toList → n = n')
    (hplace : ∀ i k name, (i, k) ∈ NAMESPACES → TYPETONAME.lookup i = some name →
      place (namespaceFile initPid name) k = init.own k)
    (hown : agent.own = agent.child) (k : CloneFlag) :
    (containerMember g a agent).own k = init.own k := by
  have hall : ∀ i ∈ keys, i ∈ NAMESPACES.map Prod.fst := fun _ hi => hkeys.subset hi
  obtain ⟨nses, hnses, hloop⟩ : ∃ nses, processNamespaces ng initPid keys = .ok nses ∧
      nses.forM (addNamespace ng) .empty = (.ok (), t) := by
    rw [startNamespaces, getNamespaces, if_neg Bool.false_ne_true] at hrun
    cases hn : processNamespaces ng initPid keys with
    | ok nses =>
      rw [hn] at hrun
      exact ⟨nses, rfl, hrun⟩
    | err e =>
      rw [hn] at hrun
      cases hrun
    | panic =>
      rw [hn] at hrun
      cases hrun
  obtain ⟨hsub, hlisted, hcomplete⟩ := processNamespaces_ok hinit hagent hlink hall hnses
  have hnames : (NAMESPACES.map Prod.fst).Nodup := by decide
  have hnodup : (nses.map LinuxNamespace.type).Nodup := (hkeys.nodup_iff.2 hnames).sublist hsub
  obtain ⟨hin, hout⟩ := containerMember_listed (m := agent) hloop ha hg hnodup
  obtain ⟨i, name, hi, hname, hflag⟩ := named_of_flag k
  have hkind (ns : LinuxNamespace) (htype : ns.type = i) : ns.flag = k := by
    rw [LinuxNamespace.flag, htype, hflag, Option.getD_some]
  by_cases hsame : init.own k = agent.own k
  · rw [hsame, hown]
    apply hout
    intro ns hns hk
    exact (hlisted ns hns).1 (hk ▸ hsame)
  · have hkey : i ∈ keys := hkeys.symm.subset (List.mem_map_of_mem hi)
    obtain ⟨ns, hns, htype⟩ := hcomplete i hkey k hi hsame
    obtain ⟨-, name', hname', hpath⟩ := hlisted ns hns
    rw [htype, hname, Option.some.injEq] at hname'
    have hown := hin ns hns
    rw [hpath, if_neg (namespaceFile_ne _ _), hkind ns htype, ← hname', hplace i k name hi hname]
      at hown
    exact hown

/-- The links of the namespaces of the agent and of a container with a pid namespace of its own. -/
def execLink (_ : CloneFlag) (other : Bool) : String :=
  if other then "ns:[4026532254]" else "ns:[4026531836]"

def execKernel : NamespaceKernel Bool where
  enters := fun _ k => some (k = .newPid)
  fresh := fun _ => true

def execGuest : NamespaceGuest where
  readLink := fun path => .ok (execLink .newPid (path = "/proc/7/ns/pid"))
  getpid := 1
  openFile := fun _ _ => .ok 3

/-- The second child is in the pid namespace of the container. -/
theorem containerMember_exec_pid :
    (containerMember execKernel
      { podStart with toNew := ∅, toJoin := [(.newPid, 3)], pidns := true, userns := false }
      ⟨fun _ => false, fun _ => false⟩).own .newPid = true := by
  have hrun : startNamespaces execGuest (NAMESPACES.map Prod.fst) twiceLinux false 7 .empty =
      (.ok (), ⟨∅, [(.newPid, 3)], true, ["/proc/7/ns/pid"]⟩) := by
    rfl
  have hg : execKernel.Opens (fun _ k => decide (k = .newPid))
      ⟨∅, [(.newPid, 3)], true, ["/proc/7/ns/pid"]⟩ :=
    .cons rfl .nil
  have hshows (i name : String) (k : CloneFlag) (h : (i, k) ∈ NAMESPACES)
      (hname : TYPETONAME.lookup i = some name) :
      (namespaceFile 7 name = "/proc/7/ns/pid" ↔ k = .newPid) ∧
        namespaceFile 1 name ≠ "/proc/7/ns/pid" := by
    have hall : ∀ e ∈ NAMESPACES, ∀ name ∈ TYPETONAME.lookup e.1,
        (namespaceFile 7 name = "/proc/7/ns/pid" ↔ e.2 = .newPid) ∧
          namespaceFile 1 name ≠ "/proc/7/ns/pid" := by
      decide
    exact hall (i, k) h name hname
  have hinit : execGuest.Shows execLink 7 ⟨fun k => k = .newPid, fun k => k = .newPid⟩ := by
    intro i k name h hname
    simp only [execGuest, (hshows i name k h hname).1]
    rfl
  have hagent : execGuest.Shows execLink execGuest.getpid ⟨fun _ => false, fun _ => false⟩ := by
    intro i k name h hname
    have hne : namespaceFile execGuest.getpid name ≠ "/proc/7/ns/pid" := (hshows i name k h hname).2
    simp only [execGuest] at hne ⊢
    rw [decide_eq_false hne]
    rfl
  have hlink (k : CloneFlag) (n n' : Bool) :
      components (execLink k n).toList = components (execLink k n').toList → n = n' := by
    have hbool : ∀ n n', components (execLink .newPid n).toList =
      components (execLink .newPid n').toList → n = n' := by decide
    exact hbool n n'
  have ha : StartArgs.Takes
      { podStart with toNew := ∅, toJoin := [(.newPid, 3)], pidns := true, userns := false }
      ⟨∅, [(.newPid, 3)], true, ["/proc/7/ns/pid"]⟩ := ⟨rfl, rfl, rfl, by decide⟩
  exact containerMember_exec hrun ha hg (List.Perm.refl _) hinit hagent hlink
    (fun _ _ _ _ _ => rfl) rfl .newPid

end KataAgent
