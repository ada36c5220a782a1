import KataAgent.ContainerStart

namespace KataAgent
open Fallible
set_option autoImplicit true

/-- What a forked child meets: how the call of its `k`-th instruction fails, whether a function
called there panics, and the names in the environment it inherits, when they are Unicode. -/
structure ChildEnv where
  error : Nat → Option ErrorKind
  unwinds : Nat → Bool
  vars : Option (List String)

/-- Where the control of a child goes. -/
inductive Control where
  | falls
  | returned (e : ErrorKind)
  | unwound
  | exited (code : Int)
  | execed
  deriving DecidableEq, Repr

/-- The functions of the child that contain an `unwrap` of their own. -/
def SysCall.mayUnwind : SysCall → Bool
  | .rootToStr => true
  | .initRootfs _ => true
  | .pivotRootfs => true
  | .finishRootfs => true
  | _ => false

/-- The results that the caller looks at and lets pass. -/
def SysCall.tolerates : SysCall → ErrorKind → Bool
  | .setns _ flag, e => flag = .newUser && e = .nix .EINVAL
  | .ioctlCtty _, _ => true
  | _, _ => false

def SysCall.outcome (c : SysCall) (env : ChildEnv) (k : Nat) : Outcome ErrorKind Unit :=
  if c.mayUnwind && env.unwinds k then .panic
  else
    match env.error k with
    | none => .ok ()
    | some e => if c.tolerates e then .ok () else .err e

def nulFree (cs : List Char) : Bool := !cs.contains '\x00'

/-- The names that `env::remove_var` accepts. -/
def validName (name : String) : Bool :=
  name ≠ "" && nulFree name.toList && !name.toList.contains '='

/-- The entries that the loop over the process environment gets through. -/
def validEntry (entry : String) : Bool :=
  match entry.toList.splitOn '=' with
  | key :: value :: _ => key ≠ [] && nulFree key && nulFree value
  | _ => false

def execReady (env : ChildEnv) (args vars : List String) : Bool :=
  match args, env.vars with
  | path :: _, some names => nulFree path.toList && names.all validName && vars.all validEntry
  | _, _ => false

/-- `args[0]` and `do_exec`; a failing `execvp` exits. -/
def doExec (env : ChildEnv) (k : Nat) (args vars : List String) : Control :=
  if execReady env args vars then
    match env.error k with
    | none => .execed
    | some _ => .exited (-2)
  else .unwound

/-- An early return from a scope; a `defer!` whose close fails panics. -/
def ChildEnv.leave (env : ChildEnv) (deferred : Option Nat) (c : Control) : Control :=
  match deferred with
  | none => c
  | some j => if (env.error j).isSome then .unwound else c

/-- The instructions from position `k` on, with the position of the open `defer!`. -/
def ChildEnv.run (env : ChildEnv) (k : Nat) (deferred : Option Nat) : List Instr → Control
  | [] => .falls
  | i :: rest =>
    match i with
    | .call c =>
      match c.outcome env k with
      | .ok _ => env.run (k + 1) deferred rest
      | .err e => env.leave deferred (.returned e)
      | .panic => .unwound
    | .read _ _ | .write _ _ | .fork =>
      match env.error k with
      | none => env.run (k + 1) deferred rest
      | some e => env.leave deferred (.returned e)
    | .hook _ _ => env.run (k + 1) deferred rest
    | .exit code => .exited code
    | .fail e => env.leave deferred (.returned e)
    | .defer _ => env.run (k + 1) (some k) rest
    | .endScope => env.leave deferred (env.run (k + 1) none rest)
    | .exec args vars => doExec env k args vars

/-- `start` in a child: an error of `join_namespaces` ends the process with `code`, what follows
`join_namespaces` hands its errors on. -/
def childControl (env : ChildEnv) (code : Int) (join start : List Instr) : Control :=
  match env.run 0 none join with
  | .falls => env.run join.length none start
  | .returned _ => .exited code
  | c => c

def startAfterJoin (a : StartArgs) : List Instr := startSetup a ++ startExec a

def firstChild (a : StartArgs) (pid : Int) (env : ChildEnv) : Control :=
  childControl env (-1)
    (joinNamespacesChild a ++
      if a.pidns then joinNamespacesRelay pid else joinNamespacesContainer a)
    (startAfterJoin a)

def secondChild (a : StartArgs) (env : ChildEnv) : Control :=
  childControl env (-2) (joinNamespacesContainer a) (startAfterJoin a)

end KataAgent
