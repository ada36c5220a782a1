import KataAgent.CgroupStats
import KataAgent.ContainerObject
import KataAgent.ContainerRequests
import KataAgent.ContainerStart

namespace KataAgent
open Fallible
set_option autoImplicit true

/-- The fields of a registered `Process` that requests read. -/
structure ServedProcess where
  execId : String
  init : Bool
  parentStdin : Option RawFd
  parentStdout : Option RawFd
  parentStderr : Option RawFd
  termMaster : Option RawFd
  exitPipeR : Option RawFd
  exitCode : Int
  deriving DecidableEq

/-- What the container objects have besides the fields of `Container`. -/
structure Inside where
  version : String
  annotations : List (String × String)
  initProcessPid : Int
  /-- In the order of a run over the map. -/
  processes : List (Int × ServedProcess)
  /-- `paths` of the `cgroup_manager`, which `LinuxContainer::new` sets. -/
  cgroupPaths : Table String String
  deriving DecidableEq

/-- The agent behind its service, with the processes of its containers. -/
structure Server extends Agent where
  inside : String → Inside
  /-- The `WaitProcess` calls between their two uses of the mutex. -/
  waiting : List (String × Int)
  /-- A call that never returns has the mutex. -/
  held : Bool

inductive RpcStatusCode where
  | internal
  | invalidArgument
  | unavailable
  deriving DecidableEq, Repr

structure RpcStatus where
  code : RpcStatusCode
  message : String
  deriving DecidableEq, Repr

inductive Reply where
  | empty
  | status (exitCode : Int)
  | len (n : UInt32)
  | data (bytes : List UInt8)
  | processList (text : String)
  | stats (cgroup : CgroupStats)
  /-- The call goes on to its exit pipe. -/
  | pending (pid : Int)
  deriving DecidableEq

/-- How a `read(2)` ends. One of an empty pipe waits for a writer. -/
inductive ReadResult where
  | bytes (bs : List UInt8)
  | again
  | failed (e : ErrorKind)
  | never

/-- How a `write(2)` ends. One into a full pipe waits for a reader. -/
inductive WriteResult where
  | wrote (n : Nat)
  | again
  | failed
  | never

/-- What becomes of the run of `ps`. -/
inductive PsResult where
  | printed (out : String)
  | notUnicode
  | failed
  | never

/-- What the guest answers to one request. -/
structure HandlerGuest where
  remove : RemoveGuest
  /-- The answers to `destroy`, in place of the outcome in `remove`. -/
  destroy : DestroyGuest
  /-- The poststop hooks that `execute_hook` never comes back from. -/
  hookWaits : Nat → Bool
  /-- `Process::new`, and `start` up to the OCI state and after it. -/
  processNew : Option Errno
  namespaces : Option ErrorKind
  /-- `join_namespaces` waits for ever for a word from its child. -/
  joinWaits : Bool
  join : Option ErrorKind
  closePipes : Option Errno
  rest : Option ErrorKind
  child : Int
  child_pos : 0 < child
  started : ServedProcess
  bundlePath : String → Outcome ErrorKind (Option String)
  signalHandled : Bool
  kill : Int → Nat → Option Errno
  write : WriteResult
  read : ReadResult
  ioctl : UInt16 → UInt16 → Option Errno
  ps : List String → PsResult
  set : Option ErrorKind
  cgroup : CgroupGuest

inductive ServerRequest where
  | removeContainer (req : RemoveContainerRequest)
  | execProcess (containerId execId : String) (process : Option OCIProcess)
  | signalProcess (containerId execId : String) (signal : UInt32)
  | waitProcess (containerId execId : String)
  /-- The rest of a `WaitProcess` after its exit pipe. -/
  | finishWait (containerId : String) (pid : Int)
  | writeStdin (containerId execId : String) (data : List UInt8)
  | readStdout (containerId execId : String) (len : UInt32)
  | readStderr (containerId execId : String) (len : UInt32)
  | closeStdin (containerId execId : String)
  | ttyWinResize (containerId execId : String) (row column : UInt32)
  | listProcesses (containerId format : String) (args : List String)
  | updateContainer (containerId : String) (resources : Option LinuxResources)
  | statsContainer (containerId : String)

def Server.setInside (s : Server) (cid : String) (i : Inside) : Server :=
  { s with inside := Function.update s.inside cid i }

def Server.onContainer (s : Server) (cid : String) (f : Container → Container) : Server :=
  { s with toAgent := s.toAgent.onSandbox fun sb =>
      { sb with containers := sb.containers.update cid f } }

/-- `get_container`. -/
def Server.container (s : Server) (cid : String) : Option LinuxContainer :=
  (s.sandbox.containers.lookup cid).map fun ctr => { ctr with
    version := (s.inside cid).version
    annotations := (s.inside cid).annotations
    initProcessPid := (s.inside cid).initProcessPid
    processes := (s.inside cid).processes.map Prod.fst }

def Server.present (s : Server) (cid : String) : Bool := (s.sandbox.containers.lookup cid).isSome

/-- `find_process`, which gives the process with its pid. -/
def Server.findProcess (s : Server) (cid eid : String) (init : Bool) :
    Outcome ErrorKind (Int × ServedProcess) :=
  if s.present cid then
    if init && eid = "" then
      .ofOption (.errorCode "cannot find init process!")
        ((s.inside cid).processes.find? fun p => p.1 = (s.inside cid).initProcessPid)
    else
      .ofOption (.errorCode "Invalid exec id")
        ((s.inside cid).processes.find? fun p => p.2.execId = eid)
  else .err (.errorCode "Invalid container id")

def Server.setProcess (s : Server) (cid : String) (pid : Int) (p : ServedProcess) : Server :=
  s.setInside cid { s.inside cid with
    processes := (s.inside cid).processes.map fun q => if q.1 = pid then (pid, p) else q }

def Server.removeProcess (s : Server) (cid : String) (pid : Int) : Server :=
  s.setInside cid { s.inside cid with
    processes := (s.inside cid).processes.filter fun q => q.1 ≠ pid }

def serverMutex : Mutex Server where
  poisoned s := s.poisoned
  held s := s.held
  poison t := { t with toAgent := { t.toAgent with poisoned := true } }
  hold t := { t with held := true }
  poisoned_poison _ := rfl
  held_hold _ := rfl

/-- `sandbox.lock().unwrap()` and what runs while its guard lives. -/
def Server.locked (x : Act Server (Halt RpcStatus) α) : Act Server (Halt RpcStatus) α :=
  Act.exclusive serverMutex x

/-- A handler that answers every error in one way. -/
def failsWith (e : RpcStatus) (x : Act Server (Halt ErrorKind) α) :
    Act Server (Halt RpcStatus) α := fun s =>
  match x s with
  | (.ok a, t) => (.ok a, t)
  | (.err (.error _), t) => (.err (.error e), t)
  | (.err .never, t) => (.err .never, t)
  | (.panic, t) => (.panic, t)

def Server.destroyOutcome (s : Server) (g : HandlerGuest) (cid : String) : Outcome ErrorKind Unit :=
  match s.container cid with
  | none => .panic
  | some ctr => (Jail.destroy g.destroy ⟨ctr, false, [], []⟩).1

def Server.removeGuest (s : Server) (g : HandlerGuest) (cid : String) : RemoveGuest :=
  { g.remove with destroy := s.destroyOutcome g cid }

/-- `destroy` runs a poststop hook that never ends; all that it does before goes well. -/
def HandlerGuest.DestroyWaits (g : HandlerGuest) (ctr : LinuxContainer) : Prop :=
  (ctr.ociState g.destroy.bundlePath).isOk ∧ (∀ pid ∈ ctr.processes, g.destroy.kill pid = none) ∧
    ∃ n < (ctr.hooks .poststop).length, g.hookWaits n ∧ (g.destroy.poststop n).refused = none ∧
      ∀ m < n, (g.destroy.poststop m).refused = none ∧ (g.destroy.poststop m).failed = none

instance : Decidable (HandlerGuest.DestroyWaits g ctr) := inferInstanceAs (Decidable (_ ∧ _))

instance (s : Server) (g : HandlerGuest) (cid : String) :
    Decidable (∃ ctr ∈ s.container cid, g.DestroyWaits ctr) :=
  inferInstanceAs (Decidable (∃ ctr ∈ s.container cid, _))

/-- What a request makes of a mutex that it does not get: with a timeout, only its thread waits. -/
def RemoveContainerRequest.waits (req : RemoveContainerRequest) : Outcome (Halt ErrorKind) Reply :=
  if req.timeout = 0 then .err .never else .err (.error (.nix .ETIME))

/-- `do_remove_container` has no value. -/
def removeReply : Outcome ErrorKind Unit → Outcome (Halt ErrorKind) Reply
  | .ok _ => .ok .empty
  | .err e => .err (.error e)
  | .panic => .panic

/-- It locks the mutex itself, once or, with a timeout, in its thread and after it. -/
def doRemove (req : RemoveContainerRequest) (g : HandlerGuest) :
    Act Server (Halt ErrorKind) Reply := fun s =>
  if s.held then (req.waits, s)
  else if s.poisoned = false ∧ ∃ ctr ∈ s.container req.containerId, g.DestroyWaits ctr then
    (req.waits, { s with held := true })
  else
    let r := doRemoveContainer req (s.removeGuest g req.containerId) s.toAgent
    (removeReply r.1, { s with toAgent := r.2 })

/-- The guest of a `start` that is not of an init process. -/
def HandlerGuest.start (g : HandlerGuest) : StartGuest where
  mkfifo := none
  openFifo := none
  namespaces := .ofFault g.namespaces
  bundlePath := g.bundlePath
  beforeHooks := .ofFault g.join
  betweenHooks := .ok ()
  afterHooks := syscall g.closePipes
  prestart := fun _ => ⟨none, none⟩
  poststart := fun _ => ⟨none, none⟩
  child := g.child
  closeFifo := none
  rest := .ofFault g.rest
  child_pos := g.child_pos

/-- `ctr.run(p)`. -/
def runExec (g : HandlerGuest) (cid eid : String) (ctr : LinuxContainer) :
    Act Server (Halt ErrorKind) Unit := fun s =>
  let j : Jail := ⟨ctr, cid ∈ s.fifos, [], []⟩
  if g.joinWaits ∧ (prepareStart g.start false j).1.isOk then (.err .never, s)
  else
    let r := Jail.run g.start ⟨none, none, none⟩ false j
    let t := s.onContainer cid fun c => { c with status := r.2.ctr.status }
    match r.1 with
    | .ok _ => (.ok (), (t.removeProcess cid g.child).setInside cid { t.inside cid with
        processes := (g.child, { g.started with execId := eid, init := false }) ::
          ((t.removeProcess cid g.child).inside cid).processes })
    | .err e => (.err (.error e), t)
    | .panic => (.panic, t)

def doExecProcess (cid eid : String) (process : Option OCIProcess) (g : HandlerGuest) :
    Act Server (Halt ErrorKind) Reply :=
  match process with
  | none => Act.fail (.error (.nix .EINVAL))
  | some _ => do
    Act.returning (Act.lift (syscall g.processNew))
    match ← Act.read (Server.container · cid) with
    | none => Act.fail (.error (.nix .EINVAL))
    | some ctr => do
      runExec g cid eid ctr
      pure .empty

/-- `Signal::from_c_int(req.signal as i32)`. -/
def fromCInt (signal : UInt32) : Option Nat :=
  let n := signal.toBitVec.toInt
  if 0 < n ∧ n < 32 then some n.toNat else none

def sigterm : Nat := 15
def sigkill : Nat := 9

def doSignalProcess (cid eid : String) (signal : UInt32) (g : HandlerGuest) :
    Act Server ErrorKind Reply := do
  let found ← Act.read (Server.findProcess · cid eid true)
  let (pid, p) ← Act.lift found
  match fromCInt signal with
  | none => Act.unwind
  | some sig => do
    let sig := if p.init && sig = sigterm && !g.signalHandled then sigkill else sig
    Act.lift (syscall (g.kill pid sig))
    pure .empty

def doWaitProcess (cid eid : String) : Act Server ErrorKind Reply := do
  let found ← Act.read (Server.findProcess · cid eid false)
  let (pid, _) ← Act.lift found
  Act.modify fun s => { s with waiting := (cid, pid) :: s.waiting }
  pure (.pending pid)

/-- `do_wait_process` from its second lock on. -/
def doFinishWait (cid : String) (pid : Int) : Act Server ErrorKind Reply := do
  Act.modify fun s => { s with waiting := s.waiting.erase (cid, pid) }
  let s ← Act.read id
  if s.present cid then
    match (s.inside cid).processes.lookup pid with
    | none => Act.unwind
    | some p => do
      Act.modify (Server.removeProcess · cid pid)
      pure (.status p.exitCode)
  else Act.unwind

def WriteResult.len (data : List UInt8) : WriteResult → Stalling ErrorKind Nat
  | .wrote n => some (.ok (if n < data.length then n else data.length))
  | .again => some (.ok 0)
  | .failed => some (.err (.nix Errno.EIO))
  | .never => none

def doWriteStream (cid eid : String) (data : List UInt8) (g : HandlerGuest) :
    Act Server (Halt ErrorKind) Reply := do
  let found ← Act.read (Server.findProcess · cid eid false)
  let (_, p) ← Act.returning (Act.lift found)
  if p.termMaster.isNone && p.parentStdin.isNone then Act.unwind
  else do
    let l ← Act.await (g.write.len data)
    pure (.len (UInt32.ofNat l))

/-- `read_stream` into a buffer of this length. -/
def ReadResult.stream (len : UInt32) : ReadResult → Stalling ErrorKind Reply
  | .bytes bs =>
    if bs.take len.toNat = [] then some (.err (.errorCode "read  meet eof"))
    else some (.ok (.data (bs.take len.toNat)))
  | .again => some (.ok (.data []))
  | .failed e => some (.err e)
  | .never => none

/-- The descriptor that `do_read_stream` picks under the mutex. -/
def pickStream (cid eid : String) (stdout : Bool) : Act Server ErrorKind (Option RawFd) := do
  let found ← Act.read (Server.findProcess · cid eid false)
  let (_, p) ← Act.lift found
  match p.termMaster with
  | some fd => pure (some fd)
  | none =>
    if stdout then pure p.parentStdout
    else
      match p.parentStderr with
      | none => Act.unwind
      | some fd => pure (some fd)

/-- The rest of `do_read_stream`, without the mutex. -/
def readPicked (g : HandlerGuest) (len : UInt32) : Option RawFd → Stalling ErrorKind Reply
  | none => some (.err (.nix .EINVAL))
  | some _ => g.read.stream len

/-- `do_read_stream` behind its handler. -/
def readStream (e : RpcStatus) (cid eid : String) (len : UInt32) (stdout : Bool)
    (g : HandlerGuest) : Act Server (Halt RpcStatus) Reply := do
  let fd ← Server.locked (failsWith e (pickStream cid eid stdout).returning)
  failsWith e (Act.await (readPicked g len fd))

def closeStdin (cid eid : String) : Act Server RpcStatus Reply := do
  match ← Act.read (Server.findProcess · cid eid false) with
  | .ok (pid, p) => do
    Act.modify (Server.setProcess · cid pid { p with termMaster := none, parentStdin := none })
    pure .empty
  | _ => Act.fail ⟨.invalidArgument, "invalid argument"⟩

def ttyWinResize (cid eid : String) (row column : UInt32) (g : HandlerGuest) :
    Act Server RpcStatus Reply := do
  match ← Act.read (Server.findProcess · cid eid false) with
  | .ok (_, p) =>
    if p.termMaster.isNone then Act.fail ⟨.unavailable, "no tty"⟩
    else if (g.ioctl row.toUInt16 column.toUInt16).isSome then Act.fail ⟨.internal, "ioctl error"⟩
    else pure .empty
  | _ => Act.unwind

def parseDigits : List Char → Option Nat
  | [] => none
  | cs => if cs.all Char.isDigit then some (cs.foldl (fun n c => 10 * n + (c.toNat - '0'.toNat)) 0)
    else none

/-- `str::parse::<i32>`. -/
def parseI32 : List Char → Option Int
  | '-' :: cs => (parseDigits cs).bind fun n => if n ≤ 2 ^ 31 then some (-n) else none
  | '+' :: cs => (parseDigits cs).bind fun n => if n < 2 ^ 31 then some (n : Int) else none
  | cs => (parseDigits cs).bind fun n => if n < 2 ^ 31 then some (n : Int) else none

/-- The field of a line that the loop parses. -/
def pidField (pidIndex : Nat) (line : List Char) : Option (List Char) :=
  if line.all isWhitespace then none else (splitWhitespace line)[pidIndex]?

/-- The lines of the processes in `pids`, as often as these contain their pid. -/
def selectLines (pids : List Int) (pidIndex : Nat) :
    List (List Char) → Outcome RpcStatus (List Char)
  | [] => .ok []
  | line :: lines =>
    match pidField pidIndex line with
    | none => selectLines pids pidIndex lines
    | some field =>
      match parseI32 field with
      | none => .panic
      | some pid => do
        let rest ← selectLines pids pidIndex lines
        .ok ((pids.filter (· = pid)).flatMap (fun _ => line) ++ rest)

def selectProcesses (pids : List Int) (out : String) : Outcome RpcStatus Reply :=
  match out.toList.splitOn '\n' with
  | [] => .panic
  | header :: lines =>
    match (splitWhitespace header).findIdx? (· = ['P', 'I', 'D']) with
    | none => .panic
    | some pidIndex => do
      let rest ← selectLines pids pidIndex lines
      .ok (.processList (String.ofList (header ++ rest)))

def listProcesses (cid format : String) (args : List String) (g : HandlerGuest) :
    Act Server (Halt RpcStatus) Reply := do
  match ← Act.read (Server.container · cid) with
  | none => Act.unwind
  | some ctr =>
    if format = "json" then
      pure (.processList ("[" ++ ",".intercalate (ctr.processes.map toString) ++ "]"))
    else if format ≠ "table" then Act.fail (.error ⟨.invalidArgument, "invalid format"⟩)
    else
      match g.ps (if args = [] then ["-ef"] else args) with
      | .printed out => Act.returning (Act.lift (selectProcesses ctr.processes out))
      | .notUnicode => Act.unwind
      | .failed => Act.unwind
      | .never => Act.fail .never

def updateContainer (cid : String) (resources : Option LinuxResources) (g : HandlerGuest) :
    Act Server RpcStatus Reply := do
  match ← Act.read (Server.container · cid) with
  | none => Act.unwind
  | some ctr =>
    match resources, g.set, ctr.spec.linux with
    | none, _, _ => pure .empty
    | some _, some _, _ => Act.fail ⟨.internal, "internal error"⟩
    | some _, none, none => Act.unwind
    | some r, none, some linux => do
      Act.modify (Server.onContainer · cid fun c =>
        { c with spec := { c.spec with linux := some { linux with resources := some r } } })
      pure .empty

def statsContainer (cid : String) (g : HandlerGuest) : Act Server RpcStatus Reply := do
  match ← Act.read (Server.container · cid) with
  | none => Act.unwind
  | some _ =>
    match managerStats g.cgroup (← Act.read fun s => (s.inside cid).cgroupPaths) with
    | .ok r => pure (.stats r)
    | .err _ => Act.fail ⟨.internal, "internal error!"⟩
    | .panic => Act.unwind

/-- The handler of a request. -/
def serve (g : HandlerGuest) : ServerRequest → Act Server (Halt RpcStatus) Reply
  | .removeContainer req => failsWith ⟨.internal, "fail to remove container"⟩ (doRemove req g)
  | .execProcess cid eid process => Server.locked
    (failsWith ⟨.internal, "fail to exec process!"⟩ (doExecProcess cid eid process g))
  | .signalProcess cid eid signal => Server.locked
    (failsWith ⟨.internal, "fail to signal process!"⟩ (doSignalProcess cid eid signal g).returning)
  | .waitProcess cid eid => Server.locked
    (failsWith ⟨.internal, "fail to wait process!"⟩ (doWaitProcess cid eid).returning)
  | .finishWait cid pid => Server.locked
    (failsWith ⟨.internal, "fail to wait process!"⟩ (doFinishWait cid pid).returning)
  | .writeStdin cid eid data => Server.locked
    (failsWith ⟨.invalidArgument, "write stream failed"⟩ (doWriteStream cid eid data g))
  | .readStdout cid eid len => readStream ⟨.internal, "failed to read stdout"⟩ cid eid len true g
  | .readStderr cid eid len => readStream ⟨.internal, "failed to read stderr"⟩ cid eid len false g
  | .closeStdin cid eid => Server.locked (closeStdin cid eid).returning
  | .ttyWinResize cid eid row column => Server.locked (ttyWinResize cid eid row column g).returning
  | .listProcesses cid format args => Server.locked (listProcesses cid format args g)
  | .updateContainer cid resources => Server.locked (updateContainer cid resources g).returning
  | .statsContainer cid => Server.locked (statsContainer cid g).returning

end KataAgent
