import KataAgent.ContainerStart
import KataAgent.Table
import KataAgent.Transition

namespace KataAgent
open Transition
set_option autoImplicit true

abbrev Pid := Nat

/-- What `waitpid` reports of a child that ended; the reaper asks for no stops. -/
inductive WaitStatus where
  | exited (code : Int)
  | signaled (sig : Nat)
  deriving DecidableEq, Repr

/-- The value that the reaper stores as `exit_code`. -/
def WaitStatus.code : WaitStatus → Int
  | .exited code => code
  | .signaled sig => sig

/-- `WaitStatus::from_raw` of the nix crate succeeds: its `Signal` has no real-time signals. -/
def WaitStatus.known : WaitStatus → Bool
  | .exited _ => true
  | .signaled sig => decide (sig < 32)

/-- A child of the agent, up to the end of the reaper's round about it. -/
inductive ChildPhase where
  | running
  | zombie (status : WaitStatus)
  | reaped (status : WaitStatus)
  | handled (status : WaitStatus)
  /-- The kernel's `waitpid` gave the child up, and nix answered `EINVAL`. -/
  | lost (status : WaitStatus)
  deriving DecidableEq, Repr

/-- The kernel gives the pid to no other child before this one is reaped. -/
def ChildPhase.unreaped : ChildPhase → Bool
  | .running => true
  | .zombie _ => true
  | _ => false

/-- The variables of `Process::new`, `start` and `join_namespaces` that hold a descriptor. -/
inductive Slot where
  | parentConsoleSocket
  | consoleSocket
  | stdin
  | parentStdin
  | parentStdout
  | stdout
  | parentStderr
  | stderr
  | fifofd
  | toJoin (i : Nat)
  | pfd
  | cfd
  | crfd
  | pwfd
  | hookRfd (i : Nat)
  | hookWfd (i : Nat)
  | exitPipeR
  | exitPipeW
  | termMaster
  deriving DecidableEq, Repr

/-- `start` looks at the result of the closing. -/
def Slot.checked : Slot → Bool
  | .toJoin _ => false
  | _ => true

/-- What a descriptor refers to: what one start opened for one of its variables, or something
that the rest of the agent uses. -/
inductive File where
  | start (id : Nat) (slot : Slot)
  | other
  deriving DecidableEq, Repr

/-- The steps of a start, in the agent, that open or close descriptors, fork, or test whether
there is a container or a fifo. -/
inductive StartInstr where
  | openAt (slot : Slot)
  | close (slot : Slot)
  | getContainer
  | makeFifo
  | fork
  deriving DecidableEq, Repr

structure StartRequest where
  containerId : String
  execId : String
  /-- `create_container`; otherwise `exec_process`. -/
  init : Bool
  terminal : Bool
  /-- How many namespaces `start` opens to join them. -/
  joins : Nat
  /-- How many prestart and poststart hooks the spec has; only `create_container` runs them. -/
  hooks : Nat
  deriving DecidableEq, Repr

/-- The ids by which clients name the process. -/
def StartRequest.name (req : StartRequest) : String × String := (req.containerId, req.execId)

structure Child where
  pid : Pid
  phase : ChildPhase
  /-- The request of the start that forked it. -/
  startedFor : Option StartRequest
  deriving DecidableEq, Repr

/-- `Process::new`. -/
def processNew (terminal : Bool) : List StartInstr :=
  onlyIf terminal [.openAt .parentConsoleSocket, .openAt .consoleSocket] ++
    [.openAt .stdin, .openAt .parentStdin, .openAt .parentStdout, .openAt .stdout,
      .openAt .parentStderr, .openAt .stderr]

/-- The parent's half of `execute_hook`, which closes neither end of its pipe. -/
def executeHook (i : Nat) : List StartInstr := [.openAt (.hookRfd i), .openAt (.hookWfd i)]

/-- `start` in the agent up to the insertion into `processes`. The process that it registers is
forked between the pipes of `join_namespaces` and their closing, by a child if there is a new pid
namespace; the descriptor of a terminal comes with a message. -/
def startParent (init terminal : Bool) (joins hooks : Nat) : List StartInstr := List.flatten
  [onlyIf init [.makeFifo, .openAt .fifofd],
    (List.range joins).map fun i => .openAt (.toJoin i),
    [.openAt .pfd, .openAt .cfd, .openAt .crfd, .openAt .pwfd, .fork, .close .cfd, .close .crfd],
    onlyIf init ((List.range hooks).flatMap executeHook),
    [.close .pfd, .close .pwfd],
    onlyIf init [.close .fifofd],
    [.close .stdin, .close .stderr, .close .stdout],
    (List.range joins).map fun i => .close (.toJoin i),
    [.openAt .exitPipeR, .openAt .exitPipeW],
    onlyIf terminal [.openAt .termMaster, .close .parentConsoleSocket, .close .consoleSocket]]

/-- What `do_create_container` or `do_exec_process` runs of the two. -/
def StartRequest.program (req : StartRequest) : List StartInstr :=
  processNew req.terminal ++ onlyIf (req.init = false) [.getContainer] ++
    startParent req.init req.terminal req.joins req.hooks

/-- A start that holds the sandbox mutex. -/
structure Starting where
  id : Nat
  request : StartRequest
  slots : Table Slot RawFd
  child : Option Pid
  rest : List StartInstr
  deriving DecidableEq

/-- The fields of a registered `Process` that the reaper and the requests use. -/
structure ProcessRecord where
  /-- The start that made the record. -/
  owner : Nat
  execId : String
  init : Bool
  parentStdin : Option RawFd
  parentStdout : Option RawFd
  parentStderr : Option RawFd
  termMaster : Option RawFd
  exitPipeR : Option RawFd
  exitPipeW : Option RawFd
  exitCode : Int
  deriving DecidableEq

def ProcessRecord.fd (e : ProcessRecord) : Slot → Option RawFd
  | .parentStdin => e.parentStdin
  | .parentStdout => e.parentStdout
  | .parentStderr => e.parentStderr
  | .termMaster => e.termMaster
  | .exitPipeR => e.exitPipeR
  | .exitPipeW => e.exitPipeW
  | _ => none

/-- Those of the descriptors that are there. -/
def ProcessRecord.fds (e : ProcessRecord) (slots : List Slot) : List (Slot × RawFd) :=
  slots.filterMap fun slot => (e.fd slot).map fun fd => (slot, fd)

/-- The record that `start` inserts. -/
def Starting.record (st : Starting) : ProcessRecord where
  owner := st.id
  execId := st.request.execId
  init := st.request.init
  parentStdin := st.slots.lookup .parentStdin
  parentStdout := st.slots.lookup .parentStdout
  parentStderr := st.slots.lookup .parentStderr
  termMaster := st.slots.lookup .termMaster
  exitPipeR := st.slots.lookup .exitPipeR
  exitPipeW := st.slots.lookup .exitPipeW
  exitCode := 0

/-- The reaper between two `waitpid` calls, or with a status and no mutex yet, or unwound. -/
inductive Reaper where
  | idle
  | holding (child : Nat) (pid : Pid) (status : WaitStatus)
  | dead
  deriving DecidableEq

def Reaper.pid : Reaper → Option Pid
  | .holding _ pid _ => some pid
  | _ => none

/-- A `WaitProcess` call after its first use of the mutex. -/
inductive WaitPhase where
  | reading
  | finishing
  | returned (status : Int)
  | panicked
  deriving DecidableEq

def WaitPhase.pending : WaitPhase → Prop
  | .reading => True
  | .finishing => True
  | _ => False

instance : DecidablePred WaitPhase.pending
  | .reading => isTrue trivial
  | .finishing => isTrue trivial
  | .returned _ => isFalse id
  | .panicked => isFalse id

structure WaitCall where
  containerId : String
  execId : String
  pid : Pid
  exitPipeR : Option RawFd
  /-- The owner of the record that the call found. -/
  found : Nat
  phase : WaitPhase
  deriving DecidableEq

inductive ReadPhase where
  | reading
  | failed
  /-- The call returned bytes that it read from the file. -/
  | returned (file : File)
  deriving DecidableEq

/-- A `ReadStdout` or `ReadStderr` call after its use of the mutex. -/
structure ReadCall where
  containerId : String
  execId : String
  stdout : Bool
  fd : RawFd
  found : Nat
  phase : ReadPhase
  deriving DecidableEq

/-- The agent with its children and descriptors, and a history of what was done to them. -/
structure Runtime where
  next : Nat
  children : Table Nat Child
  files : Table RawFd File
  containers : Table String (Table Pid ProcessRecord)
  /-- The exec fifo in a container's directory, with the start that made it. -/
  fifos : Table String Nat
  starting : Option Starting
  poisoned : Bool
  /-- The call that holds the mutex waits for something that never comes. -/
  stuck : Bool
  /-- The children of failed starts that wait for ever for a message of their parent. -/
  stranded : Finset Nat
  /-- The children that have executed no program, each with the starts whose `exit_pipe_w` it has a
  copy of. -/
  inherited : Table Nat (Finset Nat)
  reaper : Reaper
  waits : Table Nat WaitCall
  reads : Table Nat ReadCall
  /-- The `RemoveContainer` calls with a timeout whose thread has destroyed the container. -/
  removals : Table Nat String
  /-- The children whose status was written, each with the owner of the record. -/
  written : List (Nat × Nat)
  /-- The descriptors that starts opened, and those that were closed, in order. -/
  opened : List (Nat × Slot)
  closed : List (Nat × Slot)
  deriving DecidableEq

inductive RuntimeAction where
  /-- The agent gets a child that no start registers, with copies of some exit pipes. -/
  | spawn (pid : Pid) (copies : Finset Nat)
  /-- The child executes a program, which closes its copies. -/
  | exec (child : Nat)
  | exit (child : Nat) (status : WaitStatus)
  | reap (child : Nat)
  /-- The rest of the reaper's round; `find_process` comes to this container first. -/
  | record (containerId : String)
  | begin (req : StartRequest)
  /-- The next step of the start, with the number that the kernel chooses if there is one. -/
  | start (n : Nat)
  /-- The start fails, or unwinds, before or after its last message to the child. -/
  | abandon (unwinds strands : Bool)
  /-- The start waits for ever for its child, a hook or the descriptor of the terminal. -/
  | hang
  | waitLookup (call : Nat) (containerId execId : String) (pid : Pid)
  | waitRead (call : Nat)
  | waitFinish (call : Nat)
  | readPick (call : Nat) (containerId execId : String) (pid : Pid) (stdout : Bool)
  | readReturn (call : Nat) (ok : Bool)
  | closeStdin (containerId execId : String) (pid : Pid)
  /-- `RemoveContainer` without a timeout; the guest says whether all of it works. -/
  | removeContainer (containerId : String) (ok : Bool)
  /-- With a timeout: the thread that destroys the container, and then the rest. -/
  | destroyContainer (call : Nat) (containerId : String) (ok : Bool)
  | removeDestroyed (call : Nat)
  /-- `RemoveContainer`, whose `destroy` waits for ever for a poststop hook. -/
  | hangDestroy (containerId : String)
  /-- `CreateSandbox`, with the containers whose directories it manages to remove. -/
  | createSandbox (wiped : List String)
  | openOther (fd : RawFd)
  | closeOther (fd : RawFd)
  deriving DecidableEq

def Runtime.entry (s : Runtime) (containerId : String) (pid : Pid) : Option ProcessRecord :=
  (s.containers.lookup containerId).bind fun processes => processes.lookup pid

def Runtime.setEntry (s : Runtime) (containerId : String) (pid : Pid) (e : ProcessRecord) :
    Runtime :=
  { s with containers := s.containers.update containerId fun processes => processes.insert pid e }

def Runtime.removeEntry (s : Runtime) (containerId : String) (pid : Pid) : Runtime :=
  { s with containers := s.containers.update containerId fun processes => processes.erase pid }

/-- `close` of descriptors of one start; one that is not open is left alone. -/
def Runtime.closeAll (s : Runtime) (owner : Nat) (fds : List (Slot × RawFd)) : Runtime :=
  { s with
    files := (fds.map Prod.snd).foldl (fun files fd => files.erase fd) s.files
    closed := s.closed ++ fds.map fun p => (owner, p.1) }

def Runtime.setPhase (s : Runtime) (k : Nat) (phase : ChildPhase) : Runtime :=
  { s with children := s.children.update k fun c => { c with phase := phase } }

def Runtime.setWait (s : Runtime) (i : Nat) (phase : WaitPhase) : Runtime :=
  { s with waits := s.waits.update i fun w => { w with phase := phase } }

def Runtime.setRead (s : Runtime) (i : Nat) (phase : ReadPhase) : Runtime :=
  { s with reads := s.reads.update i fun r => { r with phase := phase } }

/-- A child that is not reaped has the pid. -/
def Runtime.pidTaken (s : Runtime) (pid : Pid) : Prop :=
  ∃ k ∈ s.children.keys, ∃ c ∈ s.children.lookup k, c.phase.unreaped ∧ c.pid = pid

instance : Decidable (Runtime.pidTaken s pid) := inferInstanceAs (Decidable (∃ _ ∈ _, _))

/-- The mutex is free and not poisoned. -/
def Runtime.lockable (s : Runtime) : Prop :=
  s.starting = none ∧ s.poisoned = false ∧ s.stuck = false

instance : Decidable (Runtime.lockable s) := inferInstanceAs (Decidable (_ ∧ _))

def Runtime.Runs (s : Runtime) (k : Nat) : Prop :=
  (s.children.lookup k).map Child.phase = some .running

instance : Decidable (Runtime.Runs s k) := inferInstanceAs (Decidable (_ = _))

/-- The start whose exit pipe is written there. -/
def File.exitWriter : File → Option Nat
  | .start k .exitPipeW => some k
  | _ => none

/-- The starts whose `exit_pipe_w` the agent has open, of which a child that it forks gets
copies. -/
def Runtime.exitWriters (s : Runtime) : Finset Nat :=
  s.files.keys.biUnion fun fd => ((s.files.lookup fd).bind File.exitWriter).toFinset

/-- A child that runs and has executed no program has a copy of the `exit_pipe_w`. -/
def Runtime.Inherited (s : Runtime) (k : Nat) : Prop :=
  ∃ j ∈ s.inherited.keys, s.Runs j ∧ ∃ copies ∈ s.inherited.lookup j, k ∈ copies

instance : Decidable (Runtime.Inherited s k) := inferInstanceAs (Decidable (∃ _ ∈ _, _ ∧ _))

/-- The containers in which `find_process` may find the pid. -/
def Runtime.holders (s : Runtime) (pid : Pid) : Finset String :=
  s.containers.keys.filter fun containerId => (s.entry containerId pid).isSome

def Runtime.spawn (s : Runtime) (pid : Pid) (copies : Finset Nat) : Option Runtime :=
  if s.pidTaken pid ∨ ∃ k ∈ copies, k ∉ s.exitWriters ∧ ¬ s.Inherited k then none
  else some { s with
    next := s.next + 1
    children := s.children.insert s.next ⟨pid, .running, none⟩
    inherited := s.inherited.insert s.next copies }

def Runtime.exec (s : Runtime) (k : Nat) : Option Runtime :=
  if s.Runs k then some { s with inherited := s.inherited.erase k } else none

def Runtime.exit (s : Runtime) (k : Nat) (status : WaitStatus) : Option Runtime :=
  match s.children.lookup k with
  | some ⟨_, .running, _⟩ => some (s.setPhase k (.zombie status))
  | _ => none

/-- `waitpid`, without the mutex. On an error the reaper goes to wait for the next `SIGCHLD`. -/
def Runtime.reap (s : Runtime) (k : Nat) : Option Runtime :=
  match s.reaper, s.children.lookup k with
  | .idle, some ⟨pid, .zombie status, _⟩ =>
    if status.known then
      some { s.setPhase k (.reaped status) with reaper := .holding k pid status }
    else some (s.setPhase k (.lost status))
  | _, _ => none

/-- The reaper goes on to its next `waitpid`. -/
def Runtime.endRound (s : Runtime) (k : Nat) (status : WaitStatus) : Runtime :=
  { s.setPhase k (.handled status) with reaper := .idle }

def Runtime.writeExit (s : Runtime) (containerId : String) (k : Nat) (pid : Pid)
    (status : WaitStatus) (e : ProcessRecord) (pipeWrite : RawFd) : Runtime :=
  { ((s.setEntry containerId pid { e with exitCode := status.code }).closeAll e.owner
      [(.exitPipeW, pipeWrite)]).endRound k status with
    written := s.written ++ [(k, e.owner)] }

/-- The reaper's use of the mutex. It does not clear `exit_pipe_w`. -/
def Runtime.record (s : Runtime) (containerId : String) : Option Runtime :=
  match s.reaper, s.starting with
  | .holding k pid status, none =>
    if s.stuck then none
    else if s.poisoned then some { s with reaper := .dead }
    else if s.holders pid = ∅ then some (s.endRound k status)
    else
      match s.entry containerId pid with
      | none => none
      | some e =>
        match e.exitPipeW with
        | none => some (s.endRound k status)
        | some pipeWrite => some (s.writeExit containerId k pid status e pipeWrite)
  | _, _ => none

def Runtime.begin (s : Runtime) (req : StartRequest) : Option Runtime :=
  if s.lockable then
    some { s with
      next := s.next + 1
      starting := some ⟨s.next, req, ∅, none, req.program⟩ }
  else none

def Runtime.instr (s : Runtime) (st : Starting) (n : Nat) : StartInstr → Option Runtime
  | .openAt slot =>
    if n ∈ s.files then none
    else some { s with
      files := s.files.insert n (.start st.id slot)
      opened := s.opened ++ [(st.id, slot)]
      starting := some { st with slots := st.slots.insert slot n } }
  | .close slot =>
    match st.slots.lookup slot with
    | none => none
    | some fd =>
      if slot.checked ∧ fd ∉ s.files then none
      else some { s.closeAll st.id [(slot, fd)] with
        starting := some { st with slots := st.slots.erase slot } }
  | .getContainer =>
    if st.request.containerId ∈ s.containers then some { s with starting := some st } else none
  | .makeFifo =>
    if st.request.containerId ∈ s.fifos then none
    else some { s with
      fifos := s.fifos.insert st.request.containerId st.id
      starting := some st }
  | .fork =>
    if s.pidTaken n then none
    else some { s with
      children := s.children.insert st.id
        ⟨n, .running, some st.request⟩
      inherited := s.inherited.insert st.id s.exitWriters
      starting := some { st with child := some n } }

/-- The insertion into `processes`, and `add_container` for a new one. -/
def Runtime.register (s : Runtime) (st : Starting) (pid : Pid) : Runtime :=
  if st.request.init then
    { s with
      containers := s.containers.insert st.request.containerId
        ((∅ : Table Pid ProcessRecord).insert pid st.record)
      starting := none }
  else { s.setEntry st.request.containerId pid st.record with starting := none }

def Runtime.startStep (s : Runtime) (n : Nat) : Option Runtime :=
  match s.starting with
  | none => none
  | some st =>
    if s.stuck then none
    else
      match st.rest with
      | [] => st.child.map fun pid => s.register st pid
      | i :: rest => s.instr { st with rest := rest } n i

def Runtime.abandon (s : Runtime) (unwinds strands : Bool) : Option Runtime :=
  match s.starting with
  | none => none
  | some st =>
    if s.stuck then none
    else some { s with
      starting := none
      poisoned := s.poisoned || unwinds
      stranded := if strands then insert st.id s.stranded else s.stranded }

/-- Nothing that a start waits for comes before its `fork`. -/
def Runtime.hang (s : Runtime) : Option Runtime :=
  match s.starting with
  | none => none
  | some st => if st.child = none then none else some { s with stuck := true }

/-- The start whose exit pipe can be read there. -/
def File.exitPipe : File → Option Nat
  | .start k .exitPipeR => some k
  | _ => none

/-- A read of the descriptor waits: it is an exit pipe whose write end is open, in the agent or in
a child that has a copy. -/
def Runtime.blocks (s : Runtime) (fd : RawFd) : Prop :=
  ∃ k ∈ (s.files.lookup fd).bind File.exitPipe, k ∈ s.exitWriters ∨ s.Inherited k

instance : Decidable (Runtime.blocks s fd) :=
  inferInstanceAs (Decidable (∃ _ ∈ (s.files.lookup fd).bind File.exitPipe, _))

/-- `find_process`: `get_process` may give any process with the exec id. -/
def Runtime.found (s : Runtime) (containerId execId : String) (pid : Pid) : Option ProcessRecord :=
  if s.lockable then (s.entry containerId pid).filter fun e => e.execId = execId else none

def Runtime.waitLookup (s : Runtime) (i : Nat) (containerId execId : String) (pid : Pid) :
    Option Runtime :=
  match s.found containerId execId pid with
  | none => none
  | some e =>
    if i ∈ s.waits then none
    else some { s with
      waits := s.waits.insert i ⟨containerId, execId, pid, e.exitPipeR, e.owner,
        if e.exitPipeR = none then .finishing else .reading⟩ }

def Runtime.waitRead (s : Runtime) (i : Nat) : Option Runtime :=
  match s.waits.lookup i with
  | some ⟨_, _, _, some exitPipeR, _, .reading⟩ =>
    if s.blocks exitPipeR then none else some (s.setWait i .finishing)
  | _ => none

/-- The descriptors that `do_wait_process` closes. -/
def waitSlots : List Slot := [.parentStdin, .parentStdout, .parentStderr, .termMaster, .exitPipeR]

/-- The second use of the mutex, whose `unwrap`s panic. -/
def Runtime.waitFinish (s : Runtime) (i : Nat) : Option Runtime :=
  match s.waits.lookup i, s.starting with
  | some ⟨containerId, _, pid, _, _, .finishing⟩, none =>
    if s.stuck then none
    else if s.poisoned then some (s.setWait i .panicked)
    else
      match s.entry containerId pid with
      | none => some { s.setWait i .panicked with poisoned := true }
      | some e => some (((s.closeAll e.owner (e.fds waitSlots)).removeEntry containerId
          pid).setWait i (.returned e.exitCode))
  | _, _ => none

/-- The descriptor that `do_read_stream` picks. -/
def ProcessRecord.streamFd (e : ProcessRecord) (stdout : Bool) : Option RawFd :=
  match e.termMaster with
  | some fd => some fd
  | none => if stdout then e.parentStdout else e.parentStderr

/-- Without a standard output the call fails, without a standard error it panics. -/
def Runtime.readPick (s : Runtime) (i : Nat) (containerId execId : String) (pid : Pid)
    (stdout : Bool) : Option Runtime :=
  match s.found containerId execId pid with
  | none => none
  | some e =>
    match e.streamFd stdout with
    | none => if stdout then none else some { s with poisoned := true }
    | some fd =>
      if i ∈ s.reads then none
      else some { s with
        reads := s.reads.insert i ⟨containerId, execId, stdout, fd, e.owner, .reading⟩ }

/-- `read_stream`, without the mutex; the environment says whether it returns bytes. -/
def Runtime.readReturn (s : Runtime) (i : Nat) (ok : Bool) : Option Runtime :=
  match s.reads.lookup i with
  | some ⟨_, _, _, fd, _, .reading⟩ =>
    match s.files.lookup fd, ok with
    | some file, true => some (s.setRead i (.returned file))
    | _, _ => some (s.setRead i .failed)
  | _ => none

def Runtime.closeStdin (s : Runtime) (containerId execId : String) (pid : Pid) : Option Runtime :=
  (s.found containerId execId pid).map fun e =>
    (s.closeAll e.owner (e.fds [.termMaster, .parentStdin])).setEntry containerId pid
      { e with termMaster := none, parentStdin := none }

def Runtime.removeContainer (s : Runtime) (containerId : String) (ok : Bool) : Option Runtime :=
  if s.lockable then
    if containerId ∉ s.containers then some { s with poisoned := true }
    else if ok then some { s with containers := s.containers.erase containerId }
    else some s
  else none

/-- The thread's `unwrap`s panic without a container and on an error of `destroy`. -/
def Runtime.destroyContainer (s : Runtime) (i : Nat) (containerId : String) (ok : Bool) :
    Option Runtime :=
  if s.lockable ∧ i ∉ s.removals then
    if containerId ∈ s.containers ∧ ok then
      some { s with removals := s.removals.insert i containerId }
    else some { s with poisoned := true }
  else none

def Runtime.removeDestroyed (s : Runtime) (i : Nat) : Option Runtime :=
  match s.removals.lookup i with
  | none => none
  | some containerId =>
    if s.lockable then
      some { s with
        containers := s.containers.erase containerId
        removals := s.removals.erase i }
    else none

def Runtime.hangDestroy (s : Runtime) (containerId : String) : Option Runtime :=
  if s.lockable ∧ containerId ∈ s.containers then some { s with stuck := true } else none

/-- `remove_dir_all(CONTAINER_BASE)`, whose result is ignored. -/
def Runtime.createSandbox (s : Runtime) (wiped : List String) : Option Runtime :=
  if s.lockable then
    some { s with fifos := wiped.foldl (fun fifos containerId => fifos.erase containerId) s.fifos }
  else none

def Runtime.openOther (s : Runtime) (fd : RawFd) : Option Runtime :=
  if fd ∈ s.files then none else some { s with files := s.files.insert fd .other }

def Runtime.closeOther (s : Runtime) (fd : RawFd) : Option Runtime :=
  if s.files.lookup fd = some .other then some { s with files := s.files.erase fd } else none

def Runtime.step (s : Runtime) : RuntimeAction → Option Runtime
  | .spawn pid copies => s.spawn pid copies
  | .exec k => s.exec k
  | .exit k status => s.exit k status
  | .reap k => s.reap k
  | .record containerId => s.record containerId
  | .begin req => s.begin req
  | .start n => s.startStep n
  | .abandon unwinds strands => s.abandon unwinds strands
  | .hang => s.hang
  | .waitLookup i containerId execId pid => s.waitLookup i containerId execId pid
  | .waitRead i => s.waitRead i
  | .waitFinish i => s.waitFinish i
  | .readPick i containerId execId pid stdout => s.readPick i containerId execId pid stdout
  | .readReturn i ok => s.readReturn i ok
  | .closeStdin containerId execId pid => s.closeStdin containerId execId pid
  | .removeContainer containerId ok => s.removeContainer containerId ok
  | .destroyContainer i containerId ok => s.destroyContainer i containerId ok
  | .removeDestroyed i => s.removeDestroyed i
  | .hangDestroy containerId => s.hangDestroy containerId
  | .createSandbox wiped => s.createSandbox wiped
  | .openOther fd => s.openOther fd
  | .closeOther fd => s.closeOther fd

/-- The agent after its start, with the descriptors that it has then. -/
def Runtime.boot (files : Table RawFd File) : Runtime where
  next := 0
  children := ∅
  files := files
  containers := ∅
  fifos := ∅
  starting := none
  poisoned := false
  stuck := false
  stranded := ∅
  inherited := ∅
  reaper := .idle
  waits := ∅
  reads := ∅
  removals := ∅
  written := []
  opened := []
  closed := []

/-- Any number of requests, the reaper, the children and the kernel, in any order. -/
def processRuntime : System Runtime RuntimeAction where
  init s := ∃ files : Table RawFd File,
    (∀ fd file, files.lookup fd = some file → file = .other) ∧ s = .boot files
  step := Runtime.step

variable {s t : Runtime} {containerId : String} {pid : Pid} {e e' : ProcessRecord}

theorem Runtime.entry_eq_some : s.entry containerId pid = some e ↔
    ∃ ps, s.containers.lookup containerId = some ps ∧ ps.lookup pid = some e :=
  Option.bind_eq_some_iff

theorem Runtime.entry_setEntry (h : (s.setEntry containerId pid e).entry c p = some e') :
    (c = containerId ∧ p = pid ∧ e' = e) ∨
      (¬ (c = containerId ∧ p = pid) ∧ s.entry c p = some e') := by
  obtain ⟨ps, hc, hp⟩ := Runtime.entry_eq_some.1 h
  rcases Table.of_lookup_update hc with ⟨hx, qs, hq, rfl⟩ | ⟨hx, hc⟩
  · rcases Table.of_lookup_insert hp with ⟨hy, rfl⟩ | ⟨hy, hp⟩
    · exact .inl ⟨hx, hy, rfl⟩
    · exact .inr ⟨fun ho => hy ho.2, Runtime.entry_eq_some.2 ⟨qs, hx ▸ hq, hp⟩⟩
  · exact .inr ⟨fun ho => hx ho.1, Runtime.entry_eq_some.2 ⟨ps, hc, hp⟩⟩

/-- A change of one record that keeps what `R` compares keeps it in every record. -/
theorem Runtime.entry_of_setEntry {R : ProcessRecord → ProcessRecord → Prop}
    (he : s.entry containerId pid = some e) (h : (s.setEntry containerId pid a).entry c p = some e')
    (hR : R e a) (hrefl : ∀ x, R x x) : ∃ x, s.entry c p = some x ∧ R x e' := by
  rcases Runtime.entry_setEntry h with ⟨rfl, rfl, rfl⟩ | ⟨-, h⟩
  · exact ⟨e, he, hR⟩
  · exact ⟨e', h, hrefl e'⟩

theorem Runtime.entry_of_setEntry_owner (he : s.entry containerId pid = some e)
    (h : (s.setEntry containerId pid a).entry c p = some e') (ho : e.owner = a.owner) :
    ∃ x, s.entry c p = some x ∧ x.owner = e'.owner := by
  apply Runtime.entry_of_setEntry he h ho
  exact fun _ => rfl

theorem Runtime.entry_removeEntry (h : (s.removeEntry containerId pid).entry c p = some e') :
    ¬ (c = containerId ∧ p = pid) ∧ s.entry c p = some e' := by
  obtain ⟨ps, hc, hp⟩ := Runtime.entry_eq_some.1 h
  rcases Table.of_lookup_update hc with ⟨hx, qs, hq, rfl⟩ | ⟨hx, hc⟩
  · obtain ⟨hy, hp⟩ := Table.of_lookup_erase hp
    exact ⟨fun ho => hy ho.2, Runtime.entry_eq_some.2 ⟨qs, hx ▸ hq, hp⟩⟩
  · exact ⟨fun ho => hx ho.1, Runtime.entry_eq_some.2 ⟨ps, hc, hp⟩⟩

/-- A record that is not the changed one stays. -/
theorem Runtime.entry_update (h : s.entry c p = some e')
    (f : Table Pid ProcessRecord → Table Pid ProcessRecord)
    (hf : c = containerId → ∀ ps, ps.lookup p = some e' → (f ps).lookup p = some a)
    (hne : c ≠ containerId → a = e') :
    Runtime.entry { s with containers := s.containers.update containerId f } c p = some a := by
  obtain ⟨ps, hc, hp⟩ := Runtime.entry_eq_some.1 h
  apply Runtime.entry_eq_some.2
  dsimp only
  rw [Table.lookup_update]
  split
  · rename_i hx
    exact ⟨f ps, by rw [← hx, hc]; rfl, hf hx ps hp⟩
  · rename_i hx
    exact ⟨ps, hc, by rw [hp, hne hx]⟩

theorem Runtime.entry_setEntry_ne (h : s.entry c p = some e')
    (hne : ¬ (c = containerId ∧ p = pid)) : (s.setEntry containerId pid e).entry c p = some e' := by
  apply Runtime.entry_update h _ _ fun _ => rfl
  intro hc ps hp
  rw [Table.lookup_insert, if_neg fun hx => hne ⟨hc, hx⟩, hp]

theorem Runtime.entry_setEntry_self (h : s.entry containerId pid = some e') :
    (s.setEntry containerId pid e).entry containerId pid = some e := by
  apply Runtime.entry_update h _ _ fun hne => absurd rfl hne
  intro _ ps _
  rw [Table.lookup_insert, if_pos rfl]

theorem Runtime.entry_removeEntry_ne (h : s.entry c p = some e')
    (hne : ¬ (c = containerId ∧ p = pid)) :
    (s.removeEntry containerId pid).entry c p = some e' := by
  apply Runtime.entry_update h _ _ fun _ => rfl
  intro hc ps hp
  rw [Table.lookup_erase, if_neg fun hx => hne ⟨hc, hx⟩, hp]

theorem Runtime.entry_erase_ne (h : s.entry c p = some e') (hne : c ≠ containerId) :
    Runtime.entry { s with containers := s.containers.erase containerId } c p = some e' := by
  obtain ⟨ps, hc, hp⟩ := Runtime.entry_eq_some.1 h
  exact Runtime.entry_eq_some.2 ⟨ps, by rw [Table.lookup_erase, if_neg hne, hc], hp⟩

/-- A registration touches the containers only, and ends the start. -/
theorem Runtime.register_eq (s : Runtime) (st : Starting) (pid : Pid) : s.register st pid =
    { s with containers := (s.register st pid).containers, starting := none } := by
  rw [Runtime.register]
  split <;> rfl

section
variable {st : Starting} {pid : Pid}

@[simp] theorem Runtime.register_next : (s.register st pid).next = s.next := by
  rw [Runtime.register_eq]

@[simp] theorem Runtime.register_children : (s.register st pid).children = s.children := by
  rw [Runtime.register_eq]

@[simp] theorem Runtime.register_files : (s.register st pid).files = s.files := by
  rw [Runtime.register_eq]

@[simp] theorem Runtime.register_fifos : (s.register st pid).fifos = s.fifos := by
  rw [Runtime.register_eq]

@[simp] theorem Runtime.register_starting : (s.register st pid).starting = none := by
  rw [Runtime.register_eq]

@[simp] theorem Runtime.register_poisoned : (s.register st pid).poisoned = s.poisoned := by
  rw [Runtime.register_eq]

@[simp] theorem Runtime.register_stuck : (s.register st pid).stuck = s.stuck := by
  rw [Runtime.register_eq]

@[simp] theorem Runtime.register_stranded : (s.register st pid).stranded = s.stranded := by
  rw [Runtime.register_eq]

@[simp] theorem Runtime.register_waits : (s.register st pid).waits = s.waits := by
  rw [Runtime.register_eq]

@[simp] theorem Runtime.register_reads : (s.register st pid).reads = s.reads := by
  rw [Runtime.register_eq]

@[simp] theorem Runtime.register_written : (s.register st pid).written = s.written := by
  rw [Runtime.register_eq]

@[simp] theorem Runtime.register_opened : (s.register st pid).opened = s.opened := by
  rw [Runtime.register_eq]

@[simp] theorem Runtime.register_closed : (s.register st pid).closed = s.closed := by
  rw [Runtime.register_eq]

end

theorem Runtime.entry_register {st : Starting} (h : (s.register st pid).entry c p = some e') :
    (c = st.request.containerId ∧ p = pid ∧ e' = st.record) ∨
      (¬ (c = st.request.containerId ∧ p = pid) ∧ s.entry c p = some e') := by
  rw [Runtime.register] at h
  split at h
  · obtain ⟨ps, hc, hp⟩ := Runtime.entry_eq_some.1 h
    rcases Table.of_lookup_insert hc with ⟨hx, rfl⟩ | ⟨hx, hc⟩
    · rcases Table.of_lookup_insert hp with ⟨hy, rfl⟩ | ⟨-, hp⟩
      · exact .inl ⟨hx, hy, rfl⟩
      · cases hp
    · exact .inr ⟨fun ho => hx ho.1, Runtime.entry_eq_some.2 ⟨ps, hc, hp⟩⟩
  · exact Runtime.entry_setEntry h

theorem Runtime.entry_register_ne {st : Starting} (h : s.entry c p = some e')
    (hi : st.request.init → c ≠ st.request.containerId)
    (hne : ¬ (c = st.request.containerId ∧ p = pid)) :
    (s.register st pid).entry c p = some e' := by
  rw [Runtime.register]
  split
  · rename_i hinit
    obtain ⟨ps, hc, hp⟩ := Runtime.entry_eq_some.1 h
    exact Runtime.entry_eq_some.2 ⟨ps, by rw [Table.lookup_insert, if_neg (hi hinit), hc], hp⟩
  · exact Runtime.entry_setEntry_ne h hne

theorem Runtime.entry_erase
    (h : Runtime.entry { s with containers := s.containers.erase containerId } c p = some e') :
    s.entry c p = some e' := by
  obtain ⟨ps, hc, hp⟩ := Runtime.entry_eq_some.1 h
  exact Runtime.entry_eq_some.2 ⟨ps, (Table.of_lookup_erase hc).2, hp⟩

theorem Runtime.lookup_closeAll (s : Runtime) (owner : Nat) (fds : List (Slot × RawFd))
    (fd : RawFd) : (s.closeAll owner fds).files.lookup fd =
      if fd ∈ fds.map Prod.snd then none else s.files.lookup fd :=
  Table.lookup_foldl_erase _ _ _

theorem Runtime.lookup_closeAll_some {fds : List (Slot × RawFd)}
    (h : (s.closeAll owner fds).files.lookup fd = some file) :
    (∀ slot, (slot, fd) ∉ fds) ∧ s.files.lookup fd = some file := by
  rw [Runtime.lookup_closeAll] at h
  split at h
  · cases h
  · rename_i hm
    exact ⟨fun slot hs => hm (List.mem_map.2 ⟨(slot, fd), hs, rfl⟩), h⟩

/-- The closing of descriptors of one start leaves the other ones of any start open. -/
theorem Runtime.lookup_closeAll_start {fds : List (Slot × RawFd)}
    (hown : ∀ slot fd, (slot, fd) ∈ fds → s.files.lookup fd = some (.start owner slot))
    (h : s.files.lookup fd = some (.start k slot)) (hne : k = owner → (slot, fd) ∉ fds) :
    (s.closeAll owner fds).files.lookup fd = some (.start k slot) := by
  rw [Runtime.lookup_closeAll, if_neg, h]
  intro hm
  obtain ⟨⟨slot', fd'⟩, hq, rfl⟩ := List.mem_map.1 hm
  cases h.symm.trans (hown slot' fd' hq)
  exact hne rfl hq

theorem Runtime.mem_closed_closeAll {fds : List (Slot × RawFd)} {x : Nat × Slot} :
    x ∈ (s.closeAll owner fds).closed ↔
      x ∈ s.closed ∨ x.1 = owner ∧ ∃ fd, (x.2, fd) ∈ fds := by
  simp only [Runtime.closeAll, List.mem_append, List.mem_map, Prod.exists]
  apply or_congr_right
  constructor
  · rintro ⟨slot, fd, hm, rfl⟩
    exact ⟨rfl, fd, hm⟩
  · rintro ⟨rfl, fd, hm⟩
    exact ⟨x.2, fd, hm, rfl⟩

theorem ProcessRecord.mem_fds {slots : List Slot} {fd : RawFd} :
    (slot, fd) ∈ e.fds slots ↔ slot ∈ slots ∧ e.fd slot = some fd := by
  rw [ProcessRecord.fds]
  rw [List.mem_filterMap]
  constructor
  · rintro ⟨x, hx, h⟩
    obtain ⟨y, hy, h⟩ := Option.map_eq_some_iff.1 h
    cases h
    exact ⟨hx, hy⟩
  · rintro ⟨hm, h⟩
    exact ⟨slot, hm, by rw [h]; rfl⟩

theorem Runtime.holders_eq_empty (h : s.holders pid = ∅) (containerId : String) :
    s.entry containerId pid = none := by
  cases he : s.entry containerId pid with
  | none => rfl
  | some e =>
    obtain ⟨ps, hc, -⟩ := Runtime.entry_eq_some.1 he
    have hm : containerId ∈ s.holders pid :=
      Finset.mem_filter.2 ⟨Table.mem_keys_iff.2 ⟨ps, hc⟩, by rw [he]; rfl⟩
    rw [h] at hm
    cases hm

theorem Runtime.mem_exitWriters {k : Nat} :
    k ∈ s.exitWriters ↔ ∃ fd, s.files.lookup fd = some (.start k .exitPipeW) := by
  simp only [Runtime.exitWriters, Finset.mem_biUnion, Option.mem_toFinset, Option.mem_def]
  constructor
  · rintro ⟨fd, -, h⟩
    obtain ⟨file, hf, h⟩ := Option.bind_eq_some_iff.1 h
    apply Exists.intro fd
    rw [hf]
    unfold File.exitWriter at h
    split at h
    · cases h
      rfl
    · cases h
  · rintro ⟨fd, hf⟩
    refine ⟨fd, Table.mem_keys_iff.2 ⟨_, hf⟩, ?_⟩
    rw [hf]
    rfl

theorem Runtime.found_eq_some : s.found containerId execId pid = some e ↔
    s.lockable ∧ s.entry containerId pid = some e ∧ e.execId = execId := by
  rw [Runtime.found]
  split
  · rename_i h
    simp [h, Option.filter_eq_some_iff]
  · rename_i h
    simp [h]

end KataAgent
