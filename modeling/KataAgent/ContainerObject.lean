import KataAgent.Sandbox

namespace KataAgent
open Fallible
set_option autoImplicit true

/-- The `State` message that hooks get. -/
structure OCIState where
  version : String
  id : String
  status : String
  pid : Int
  bundle : String
  annotations : List (String × String)
  deriving DecidableEq, Repr

inductive HookPoint where
  | prestart
  | poststart
  | poststop
  deriving DecidableEq, Repr

/-- `Container`, with the fields that only the calls on one object use. -/
structure LinuxContainer extends Container where
  /-- `Version` and `Annotations` of the spec. -/
  version : String
  annotations : List (String × String)
  initProcessPid : Int
  /-- The keys of `processes`, in the order of a run over them. -/
  processes : List Int
  deriving DecidableEq, Repr

/-- A hook that was run, with the state that it got. -/
structure HookRun where
  point : HookPoint
  hook : Hook
  state : OCIState
  /-- The process that `join_namespaces` started, or the init process at a poststop hook. -/
  child : Int
  deriving DecidableEq, Repr

/-- A container object, the exec fifo under its root, and a history of what was done to it. -/
structure Jail where
  ctr : LinuxContainer
  fifo : Bool
  hooksRun : List HookRun
  /-- The values that were written to `status`, in order. -/
  statuses : List String
  deriving DecidableEq

/-- How `execute_hook` ends: it may refuse the hook before it runs. -/
structure HookGuest where
  refused : Option ErrorKind
  failed : Option ErrorKind

/-- What the guest answers to one `start`, in the agent. -/
structure StartGuest where
  mkfifo : Option Errno
  openFifo : Option Errno
  /-- `get_namespaces` and the opening of those to join. -/
  namespaces : Outcome ErrorKind Unit
  /-- The parent of the canonical path, when it has one and that is Unicode. -/
  bundlePath : String → Outcome ErrorKind (Option String)
  /-- `join_namespaces` up to the prestart hooks, between the hooks, and after them. -/
  beforeHooks : Outcome ErrorKind Unit
  betweenHooks : Outcome ErrorKind Unit
  afterHooks : Outcome ErrorKind Unit
  prestart : Nat → HookGuest
  poststart : Nat → HookGuest
  /-- The pid that `join_namespaces` returns. -/
  child : Int
  closeFifo : Option Errno
  /-- The closings after `join_namespaces`, the exit pipe and the terminal. -/
  rest : Outcome ErrorKind Unit
  child_pos : 0 < child

structure ExecGuest where
  openFifo : Option Errno
  write : Option Errno
  close : Option Errno

structure DestroyGuest where
  bundlePath : String → Outcome ErrorKind (Option String)
  kill : Int → Option Errno
  poststop : Nat → HookGuest

/-- `LinuxContainer::new` after its checks. -/
def LinuxContainer.new (id : String) (noPivotRoot : Bool) (spec : Spec) (version : String)
    (annotations : List (String × String)) : LinuxContainer where
  id := id
  noPivotRoot := noPivotRoot
  spec := spec
  status := some "stopped"
  version := version
  annotations := annotations
  initProcessPid := -1
  processes := []

def Jail.setStatus (status : String) (j : Jail) : Jail :=
  { j with
    ctr := { j.ctr with status := some status }
    statuses := j.statuses ++ [status] }

def Jail.setInitPid (pid : Int) (j : Jail) : Jail :=
  { j with ctr := { j.ctr with initProcessPid := pid } }

def Jail.addProcess (pid : Int) (j : Jail) : Jail :=
  { j with ctr := { j.ctr with processes := j.ctr.processes.insert pid } }

def LinuxContainer.ociState (bundlePath : String → Outcome ErrorKind (Option String))
    (ctr : LinuxContainer) : Outcome ErrorKind OCIState :=
  match ctr.status, ctr.spec.root with
  | none, _ => .panic
  | some _, none => .panic
  | some status, some root => do
    match ← bundlePath root.path with
    | none => .panic
    | some bundle => .ok {
        version := ctr.version
        id := ctr.id
        status := status
        pid := if status ≠ "stopped" then ctr.initProcessPid else 0
        bundle := bundle
        annotations := ctr.annotations }

def LinuxContainer.hooks (ctr : LinuxContainer) (point : HookPoint) : List Hook :=
  match ctr.spec.hooks, point with
  | none, _ => []
  | some hooks, .prestart => hooks.prestart
  | some hooks, .poststart => hooks.poststart
  | some hooks, .poststop => hooks.poststop

/-- `execute_hook`, in the agent. -/
def executeHookFor (g : HookGuest) (r : HookRun) : Act Jail ErrorKind Unit := do
  Act.lift (.ofFault g.refused)
  Act.modify fun j => { j with hooksRun := j.hooksRun ++ [r] }
  Act.lift (.ofFault g.failed)

def runHooks (point : HookPoint) (st : OCIState) (child : Int) :
    (Nat → HookGuest) → List Hook → Act Jail ErrorKind Unit
  | _, [] => pure ()
  | g, h :: hooks => do
    executeHookFor (g 0) ⟨point, h, st, child⟩
    runHooks point st child (fun n => g (n + 1)) hooks

/-- The body of an `if init` without `else`. -/
def whenInit (init : Bool) (x : Act Jail ErrorKind Unit) : Act Jail ErrorKind Unit :=
  if init then x else pure ()

/-- The exec fifo of an init process. -/
def makeFifo (g : StartGuest) : Act Jail ErrorKind Unit := do
  if ← Act.read Jail.fifo then Act.fail (.errorCode "exec fifo exists")
  else do
    Act.lift (syscall g.mkfifo)
    Act.modify fun j => { j with fifo := true }
    Act.lift (syscall g.openFifo)

/-- `start` up to `join_namespaces`, with the state for the hooks. -/
def prepareStart (g : StartGuest) (init : Bool) : Act Jail ErrorKind OCIState := do
  whenInit init (makeFifo g)
  let ctr ← Act.read Jail.ctr
  if ctr.spec.linux.isNone then Act.fail (.errorCode "no linux config")
  else do
    Act.lift g.namespaces
    Act.lift (ctr.ociState g.bundlePath)

/-- The parent's part of `join_namespaces`; only an init process has hooks. -/
def joinNamespaces (g : StartGuest) (init : Bool) (st : OCIState) : Act Jail ErrorKind Unit := do
  let ctr ← Act.read Jail.ctr
  Act.lift g.beforeHooks
  whenInit init do
    runHooks .prestart st g.child g.prestart (ctr.hooks .prestart)
    Act.lift g.betweenHooks
    runHooks .poststart st g.child g.poststart (ctr.hooks .poststart)
  Act.lift g.afterHooks

/-- `start` in the parent after `join_namespaces`. -/
def settleStart (g : StartGuest) (init : Bool) : Act Jail ErrorKind Unit := do
  Act.modify (Jail.setStatus "created")
  whenInit init do
    Act.modify (Jail.setInitPid g.child)
    Act.lift (syscall g.closeFifo)
  Act.lift g.rest
  Act.modify (Jail.addProcess g.child)

/-- `LinuxContainer::start`, in the agent. -/
def Jail.start (g : StartGuest) (init : Bool) : Act Jail ErrorKind Unit := do
  let st ← prepareStart g init
  joinNamespaces g init st
  settleStart g init

/-- `LinuxContainer::exec`, which writes to the fifo. -/
def Jail.exec (g : ExecGuest) : Act Jail ErrorKind Unit := do
  Act.lift (syscall g.openFifo)
  Act.lift (syscall g.write)
  Act.modify (Jail.setStatus "running")
  Act.lift (syscall g.close)

def Jail.run (g : StartGuest) (e : ExecGuest) (init : Bool) : Act Jail ErrorKind Unit := do
  Jail.start g init
  whenInit init do
    Jail.exec e
    Act.modify (Jail.setStatus "running")

def killAll (kill : Int → Option Errno) : List Int → Act Jail ErrorKind Unit
  | [] => pure ()
  | pid :: pids => do
    Act.lift (syscall (kill pid))
    killAll kill pids

/-- `destroy` up to its last statement. -/
def stopAll (g : DestroyGuest) : Act Jail ErrorKind Unit := do
  let ctr ← Act.read Jail.ctr
  let st ← Act.lift (ctr.ociState g.bundlePath)
  killAll g.kill ctr.processes
  runHooks .poststop st ctr.initProcessPid g.poststop (ctr.hooks .poststop)

def Jail.destroy (g : DestroyGuest) : Act Jail ErrorKind Unit := do
  stopAll g
  Act.modify (Jail.setStatus "stopped")

section
variable {I : Jail → Prop} {g : StartGuest} {init : Bool} {st : OCIState} {point : HookPoint}

theorem whenInit_preserves {x : Act Jail ErrorKind Unit} (hx : init = true → Act.Preserves I x) :
    Act.Preserves I (whenInit init x) := by
  rw [whenInit]
  split
  · rename_i hi
    exact hx hi
  · exact .pure _

theorem runHooks_preserves (hI : ∀ j h, I j →
      I { j with hooksRun := j.hooksRun ++ [⟨point, h, st, child⟩] })
    (hg : Nat → HookGuest) (hooks : List Hook) :
    Act.Preserves I (runHooks point st child hg hooks) := by
  induction hooks generalizing hg with
  | nil => exact .pure _
  | cons h hooks ih =>
    refine .bind (.bind (.lift _) fun _ => ?_) fun _ => ih _
    exact .bind (.modify fun j => hI j h) fun _ => .lift _

theorem joinNamespaces_preserves (hI : ∀ j point h, init = true → point ≠ .poststop → I j →
      I { j with hooksRun := j.hooksRun ++ [⟨point, h, st, g.child⟩] }) :
    Act.Preserves I (joinNamespaces g init st) := by
  refine .bind (.read _) fun ctr => ?_
  refine .bind (.lift _) fun _ => ?_
  refine .bind (whenInit_preserves fun hi => ?_) fun _ => .lift _
  refine .bind (runHooks_preserves (fun j h => hI j .prestart h hi nofun) _ _) fun _ => ?_
  refine .bind (.lift _) fun _ => ?_
  exact runHooks_preserves (fun j h => hI j .poststart h hi nofun) _ _

theorem killAll_preserves (kill : Int → Option Errno) (pids : List Int) :
    Act.Preserves I (killAll kill pids) := by
  induction pids with
  | nil => exact .pure _
  | cons pid pids ih => exact .bind (.lift _) fun _ => ih

theorem stopAll_preserves {g : DestroyGuest} (hI : ∀ j h st child, I j →
      I { j with hooksRun := j.hooksRun ++ [⟨.poststop, h, st, child⟩] }) :
    Act.Preserves I (stopAll g) := by
  refine .bind (.read _) fun ctr => ?_
  refine .bind (.lift _) fun st => ?_
  refine .bind (killAll_preserves _ _) fun _ => ?_
  exact runHooks_preserves (fun j h => hI j h st _) _ _

theorem prepareStart_preserves (hI : ∀ j, init = true → I j → I { j with fifo := true }) :
    Act.Preserves I (prepareStart g init) := by
  refine .bind (whenInit_preserves fun hi => ?_) fun _ => ?_
  · refine .bind (.read _) fun fifo => ?_
    split
    · exact .lift _
    · refine .bind (.lift _) fun _ => ?_
      exact .bind (.modify fun j => hI j hi) fun _ => .lift _
  · refine .bind (.read _) fun ctr => ?_
    split
    · exact .lift _
    · exact .bind (.lift _) fun _ => .lift _

end

end KataAgent
