import KataAgent.Message
import Mathlib.Data.Finset.Basic

namespace KataAgent
open Fallible
set_option autoImplicit true

/-- The namespace kinds of the `NAMESPACES` table. -/
inductive CloneFlag where
  | newUser
  | newIpc
  | newPid
  | newNet
  | newNs
  | newUts
  | newCgroup
  deriving DecidableEq, Repr

abbrev RawFd := Nat

/-- The descriptors that `Process::new` puts into a process before `start` gets it. -/
structure Process where
  execId : String
  stdin : RawFd
  stdout : RawFd
  stderr : RawFd
  parentStdin : RawFd
  parentStdout : RawFd
  parentStderr : RawFd
  /-- `parent_console_socket` and `console_socket`, which are set together. -/
  console : Option (RawFd × RawFd)
  init : Bool
  oci : OCIProcess
  deriving DecidableEq, Repr

/-- The three pipes of `join_namespaces`, under the names of their read ends. -/
inductive Pipe where
  | pfd
  | crfd
  | chfd
  deriving DecidableEq, Repr

/-- The positions of the protocol at which a word is written or read. -/
inductive SyncToken where
  | setup
  | resume
  | pid
  | pidAck
  | handover
  | prestart
  | prestartDone
  | poststart
  deriving DecidableEq, Repr

/-- A word on a pipe. The code sees its value only; the token says where it was written. -/
structure SyncWord where
  token : SyncToken
  value : Int
  deriving DecidableEq, Repr

inductive HookKind where
  | prestart
  | poststart
  deriving DecidableEq, Repr

/-- The calls that `join_namespaces` and `start` make besides reading and writing words. -/
inductive SysCall where
  | close (fd : String)
  | closeFd (fd : RawFd)
  | writeMappings (file : String) (maps : List LinuxIDMapping)
  | setCgroups
  | applyCgroups
  | writeOomScoreAdj (adj : Int)
  | setrlimit (limit : POSIXRlimit)
  | unshare (flags : Finset CloneFlag)
  | setKeepCapabilities (on : Bool)
  | setresgid (gid : Nat)
  | setresuid (uid : Nat)
  | resetEffective
  | setns (fd : RawFd) (flag : CloneFlag)
  | pipe2
  | sethostname (name : String)
  | canonicalize (path : String)
  | rootToStr
  | initRootfs (bindDevice : Bool)
  | msMoveRoot
  | pivotRootfs
  | setSysctls (sysctl : List (String × String))
  | chdir (path : String)
  | openpty
  | sendmsg (fd : RawFd)
  | setsid
  | ioctlCtty (fd : RawFd)
  | dup2 (fd target : RawFd)
  | finishRootfs
  | setgroups (groups : List Nat)
  | setNoNewPrivileges
  | dropPriviledges (caps : LinuxCapabilities)
  | openFifo
  | readFifo

inductive Instr where
  | call (c : SysCall)
  | hook (kind : HookKind) (h : Hook)
  | write (pipe : Pipe) (w : SyncWord)
  | read (pipe : Pipe) (token : SyncToken)
  | fork
  | exit (code : Int)
  | fail (e : ErrorKind)
  /-- A `defer!` that closes a descriptor and unwraps the result, and the end of its scope. -/
  | defer (fd : RawFd)
  | endScope
  /-- `do_exec` with the arguments and the environment of the process. -/
  | exec (args env : List String)

/-- What a forked child of `start` works with. That the spec has the sections named here was
checked on the way to the fork, except for `Process`. -/
structure StartArgs where
  p : Process
  process : Option OCIProcess
  root : Root
  hostname : String
  hooks : Option Hooks
  linux : Linux
  toNew : Finset CloneFlag
  toJoin : List (CloneFlag × RawFd)
  pidns : Bool
  userns : Bool
  noPivot : Bool
  fifofd : RawFd
  /-- The pseudo terminal pair that `openpty` gives the child. -/
  master : RawFd
  slave : RawFd

def writeSync (pipe : Pipe) (token : SyncToken) (value : Int) : Instr :=
  .write pipe ⟨token, value⟩

/-- The body of an `if` without `else`. -/
def onlyIf (c : Prop) [Decidable c] (body : List α) : List α :=
  if c then body else []

def setid (uid gid : Nat) : List Instr := List.flatten
  [[.call (.setKeepCapabilities true), .call (.setresgid gid), .call (.setresuid uid)],
    onlyIf (uid ≠ 0) [.call .resetEffective],
    [.call (.setKeepCapabilities false)]]

def Hooks.run (hooks : Option Hooks) (kind : HookKind) : List Instr :=
  match hooks, kind with
  | none, _ => []
  | some hooks, .prestart => hooks.prestart.map (.hook kind)
  | some hooks, .poststart => hooks.poststart.map (.hook kind)

/-- `join_namespaces` in the agent, after the fork. -/
def joinNamespacesParent (a : StartArgs) : List Instr := List.flatten
  [[.call (.close "cfd"), .call (.close "crfd"), .read .pfd .setup],
    onlyIf a.userns
      [.call (.writeMappings "uid_map" a.linux.uidMappings),
        .call (.writeMappings "gid_map" a.linux.gidMappings)],
    onlyIf (a.p.init ∧ a.linux.resources.isSome) [.call .setCgroups],
    onlyIf a.linux.resources.isSome [.call .applyCgroups],
    [writeSync .crfd .resume 0],
    onlyIf a.pidns [.read .pfd .pid, writeSync .crfd .pidAck 0],
    onlyIf a.p.init [.read .pfd .prestart],
    onlyIf a.p.init (Hooks.run a.hooks .prestart),
    onlyIf a.p.init [writeSync .crfd .prestartDone 0, .read .pfd .poststart],
    onlyIf a.p.init (Hooks.run a.hooks .poststart),
    [.call (.close "pfd"), .call (.close "pwfd")]]

/-- The loop over `to_join`; a mount namespace is left for later. -/
def joinLoop : List (CloneFlag × RawFd) → List Instr
  | [] => []
  | (s, fd) :: toJoin =>
    if s = .newNs then joinLoop toJoin
    else List.flatten
      [[.call (.setns fd s), .call (.closeFd fd)],
        onlyIf (s = .newUser) (setid 0 0),
        joinLoop toJoin]

def StartArgs.mountFd (a : StartArgs) : Option RawFd :=
  ((a.toJoin.filter fun p => p.1 = .newNs).getLast?).map Prod.snd

def StartArgs.bindDevice (a : StartArgs) : Bool :=
  a.toJoin.any (fun p => p.1 = .newUser) || a.userns

def processLimits : Option OCIProcess → List Instr
  | none => [.fail (.nix .EINVAL)]
  | some p =>
    onlyIf (p.oomScoreAdj > 0) [.call (.writeOomScoreAdj p.oomScoreAdj)] ++
      p.rlimits.map fun rl => .call (.setrlimit rl)

/-- The first child up to the point where it forks, or goes on as the container process. -/
def joinNamespacesChild (a : StartArgs) : List Instr := List.flatten
  [[.call (.close "pfd"), .call (.close "pwfd")],
    processLimits a.process,
    onlyIf a.userns [.call (.unshare {.newUser})],
    [writeSync .pfd .setup 0, .read .crfd .resume],
    onlyIf a.userns (setid 0 0),
    joinLoop a.toJoin,
    [.call (.unshare (a.toNew.erase .newUser)), .call .pipe2]]

/-- The first child as parent of the second one. -/
def joinNamespacesRelay (pid : Int) : List Instr :=
  [.fork, .call (.close "chfd"), writeSync .pfd .pid pid, .read .crfd .pidAck,
    writeSync .chfd .handover 0, .exit 0]

def enterMountNamespace : Option RawFd → List Instr
  | none => []
  | some fd => [.call (.setns fd .newNs), .call (.closeFd fd)]

/-- The process that goes on as the container, from the fork it may come out of. -/
def joinNamespacesContainer (a : StartArgs) : List Instr := List.flatten
  [onlyIf a.pidns [.call (.close "phfd")],
    onlyIf (.newUts ∈ a.toNew) [.call (.sethostname a.hostname)],
    [.call (.canonicalize a.root.path), .call .rootToStr],
    onlyIf (.newNs ∈ a.toNew) [.call (.initRootfs a.bindDevice)],
    onlyIf a.pidns [.read .chfd .handover],
    [.call (.close "chfd")],
    onlyIf a.p.init [writeSync .pfd .prestart 0, .read .crfd .prestartDone],
    [.call (.close "crfd")],
    enterMountNamespace a.mountFd,
    onlyIf (.newNs ∈ a.toNew)
      [.call (if a.noPivot then .msMoveRoot else .pivotRootfs),
        .call (.setSysctls a.linux.sysctl), .call (.chdir "/")]]

def setupStdio (p : Process) (master slave : RawFd) : List Instr :=
  (match p.console with
  | some (parentConsoleSocket, consoleSocket) => List.flatten
    [[.call .openpty, .defer master, .call (.sendmsg consoleSocket),
        .call (.closeFd consoleSocket), .call (.closeFd parentConsoleSocket), .call .setsid,
        .call (.ioctlCtty slave), .call (.dup2 slave 0), .call (.dup2 slave 1),
        .call (.dup2 slave 2)],
      onlyIf (slave > 2) [.call (.closeFd slave)],
      [.endScope]]
  | none => List.flatten
    [[.call (.dup2 p.stdin 0), .call (.dup2 p.stdout 1), .call (.dup2 p.stderr 2)],
      onlyIf (p.stdin > 2) [.call (.closeFd p.stdin)],
      onlyIf (p.stdout > 2) [.call (.closeFd p.stdout)],
      onlyIf (p.stderr > 2) [.call (.closeFd p.stderr)]]) ++
    [.call (.closeFd p.parentStdin), .call (.closeFd p.parentStdout),
      .call (.closeFd p.parentStderr)]

def setUser : Option User → List Instr
  | none => []
  | some user =>
    setid user.uid user.gid ++
      onlyIf (user.additionalGids ≠ []) [.call (.setgroups user.additionalGids)]

def setCapabilities : Option LinuxCapabilities → List Instr
  | none => []
  | some caps => [.call (.dropPriviledges caps)]

/-- `start` in the container process, from `setup_stdio` to its last word to the agent. -/
def startSetup (a : StartArgs) : List Instr := List.flatten
  [setupStdio a.p a.master a.slave,
    onlyIf (.newNs ∈ a.toNew) [.call .finishRootfs],
    onlyIf (a.p.oci.cwd ≠ "") [.call (.chdir a.p.oci.cwd)],
    setUser a.p.oci.user,
    onlyIf a.p.oci.noNewPrivileges [.call .setNoNewPrivileges],
    setCapabilities a.p.oci.capabilities,
    onlyIf a.p.init [writeSync .pfd .poststart 0]]

/-- `start` in the container process, from the exec fifo on. -/
def startExec (a : StartArgs) : List Instr :=
  onlyIf a.p.init [.call .openFifo, .call (.closeFd a.fifofd), .call .readFifo] ++
    [.exec a.p.oci.args a.p.oci.env]

end KataAgent
