import KataAgent.Message
import KataAgent.Table

namespace KataAgent
open Fallible
set_option autoImplicit true

/-- What a `LinuxContainer` keeps of its configuration and its life. -/
structure Container where
  id : String
  noPivotRoot : Bool
  spec : Spec
  status : Option String
  deriving DecidableEq, Repr

structure Sandbox where
  containers : Table String Container
  containerMounts : Table String (List String)
  storages : Table String UInt32
  sharedUtsns : String
  sharedIpcns : String
  noPivotRoot : Bool
  sandboxPidNs : Bool
  deriving DecidableEq

/-- The sandbox behind its mutex, and what the guest's file tree has of the requests. -/
structure Agent where
  sandbox : Sandbox
  poisoned : Bool
  /-- The directory that a path leads to; two spellings of one path lead to one directory. Nothing
  here makes or moves a link. -/
  place : String → String
  /-- The directories that something is mounted on, each as often as that. -/
  mounts : List String
  /-- The containers whose `exec.fifo` exists. -/
  fifos : Finset String
  /-- The directories that were unmounted or deleted, in the order of these calls. -/
  detached : List String

/-- `sandbox.lock().unwrap()` and what runs while its guard lives. -/
def locked (x : Act Agent ErrorKind α) : Act Agent ErrorKind α := fun s =>
  if s.poisoned then (.panic, s)
  else
    match x s with
    | (.panic, t) => (.panic, { t with poisoned := true })
    | (.ok a, t) => (.ok a, t)
    | (.err e, t) => (.err e, t)

def Agent.setSandbox (s : Agent) (sb : Sandbox) : Agent := { s with sandbox := sb }

def Agent.onSandbox (f : Sandbox → Sandbox) (s : Agent) : Agent := s.setSandbox (f s.sandbox)

def Sandbox.setSandboxStorage (sb : Sandbox) (path : String) : Bool × Sandbox :=
  match sb.storages.lookup path with
  | none => (true, { sb with storages := sb.storages.insert path 1 })
  | some count => (false, { sb with storages := sb.storages.insert path (count + 1) })

def Sandbox.unsetSandboxStorage (sb : Sandbox) (path : String) : Bool × Sandbox :=
  match sb.storages.lookup path with
  | none => (false, sb)
  | some count =>
    if count - 1 < 1 then (true, { sb with storages := sb.storages.erase path })
    else (true, { sb with storages := sb.storages.insert path (count - 1) })

/-- What the guest answers while one storage is handled. -/
structure StorageGuest where
  pciDeviceName : String → Outcome ErrorKind String
  scsiDeviceName : String → Outcome ErrorKind String
  /-- The mode in the metadata of the source. -/
  sourceMode : Outcome ErrorKind UInt32
  /-- `fs::create_dir_all` of the mount point, in a handler. -/
  createPoint : Option ErrorKind
  pointMetadata : Option ErrorKind
  setPermissions : Option ErrorKind
  destinationExists : Bool
  destinationIsDir : Bool
  parentExists : Bool
  createParent : Option ErrorKind
  createDestination : Option ErrorKind
  openDestination : Option ErrorKind
  /-- The text of the error that `mount(2)` fails with. -/
  mount : Option String

def msRdonly : Nat := 1
def msNosuid : Nat := 2
def msNodev : Nat := 4
def msNoexec : Nat := 8
def msSynchronous : Nat := 16
def msRemount : Nat := 32
def msMandlock : Nat := 64
def msDirsync : Nat := 128
def msNoatime : Nat := 1024
def msNodiratime : Nat := 2048
def msBind : Nat := 4096
def msRec : Nat := 16384
def msUnbindable : Nat := 2 ^ 17
def msPrivate : Nat := 2 ^ 18
def msSlave : Nat := 2 ^ 19
def msShared : Nat := 2 ^ 20
def msRelatime : Nat := 2 ^ 21
def msStrictatime : Nat := 2 ^ 24

/-- `FLAGS`; the `bool` says that the option clears the flag, and nothing reads it. -/
def mountFlags : List (String × Bool × Nat) :=
  [("defaults", false, 0), ("ro", false, msRdonly), ("rw", true, msRdonly),
    ("suid", true, msNosuid), ("nosuid", false, msNosuid),
    ("dev", true, msNodev), ("nodev", false, msNodev),
    ("exec", true, msNoexec), ("noexec", false, msNoexec),
    ("sync", false, msSynchronous), ("async", true, msSynchronous),
    ("dirsync", false, msDirsync), ("remount", false, msRemount),
    ("mand", false, msMandlock), ("nomand", true, msMandlock),
    ("atime", true, msNoatime), ("noatime", false, msNoatime),
    ("diratime", true, msNodiratime), ("nodiratime", false, msNodiratime),
    ("bind", false, msBind), ("rbind", false, msBind ||| msRec),
    ("unbindable", false, msUnbindable), ("runbindable", false, msUnbindable ||| msRec),
    ("private", false, msPrivate), ("rprivate", false, msPrivate ||| msRec),
    ("shared", false, msShared), ("rshared", false, msShared ||| msRec),
    ("slave", false, msSlave), ("rslave", false, msSlave ||| msRec),
    ("relatime", false, msRelatime), ("norelatime", true, msRelatime),
    ("strictatime", false, msStrictatime), ("nostrictatime", true, msStrictatime)]

def parseMountFlagsAndOptions (optionsVec : List String) : Nat × String :=
  optionsVec.foldl (fun (flags, options) opt =>
    if opt = "" then (flags, options)
    else
      match mountFlags.lookup opt with
      | some (_, f) => (flags ||| f, options)
      | none => if options = "" then (flags, opt) else (flags, options ++ "," ++ opt)) (0, "")

/-- A successful `mount(2)` adds a mount unless it remounts or changes the propagation; the
kernel tests for a remount first, then for a bind, then for a propagation type. -/
def addsMount (flags : Nat) : Prop :=
  flags &&& msRemount = 0 ∧
    (flags &&& msBind ≠ 0 ∨ flags &&& (msUnbindable ||| msPrivate ||| msSlave ||| msShared) = 0)

instance : Decidable (addsMount flags) := inferInstanceAs (Decidable (_ ∧ _))

structure BareMount where
  source : String
  destination : String
  fsType : String
  flags : Nat
  options : String

/-- `CString::new`, whose error names the first NUL. -/
def cString (s : String) : Outcome ErrorKind Unit :=
  if '\x00' ∈ s.toList then
    .err (.ffi ("nul byte found in provided data at position: " ++
      toString (String.ofList (s.toList.takeWhile (· ≠ '\x00'))).utf8ByteSize))
  else .ok ()

def BareMount.check (b : BareMount) : Outcome ErrorKind Unit := do
  if b.source = "" then .err (.errorCode "need mount source")
  else if b.destination = "" then .err (.errorCode "need mount destination")
  else do
    cString b.source
    cString b.destination
    if b.fsType = "" then .err (.errorCode "need mount FS type")
    else do
      cString b.fsType
      if b.options = "" then .ok () else cString b.options

def BareMount.failure (b : BareMount) (error : String) : ErrorKind :=
  .errorCode ("failed to mount " ++ b.source.quote ++ " to " ++ b.destination.quote ++
    ", with error: " ++ error)

def Agent.attach (s : Agent) (b : BareMount) : Agent :=
  if addsMount b.flags then { s with mounts := s.place b.destination :: s.mounts } else s

def BareMount.mount (g : StorageGuest) (b : BareMount) : Act Agent ErrorKind Unit := do
  Act.lift b.check
  Act.lift (.ofFault (g.mount.map b.failure))
  Act.modify (Agent.attach · b)

/-- `Path::parent` is not `None`: the path has a component besides the root. -/
def hasParent (path : String) : Bool :=
  match path.toList.splitOn '/' with
  | [] => false
  | first :: rest => first ≠ [] || rest.any fun c => c ≠ [] && c ≠ ['.']

def ensureParentExists (g : StorageGuest) (destination : String) : Outcome ErrorKind Unit :=
  if g.destinationExists then .ok ()
  else if hasParent destination then
    if g.parentExists then .ok () else .ofFault g.createParent
  else .err (.errorCode ("mount destination " ++ destination ++ " doesn't exist"))

def ensureDestinationExists (g : StorageGuest) (destination fsType : String) :
    Outcome ErrorKind Unit := do
  ensureParentExists g destination
  if fsType ≠ "bind" ∨ g.destinationIsDir then .ofFault g.createDestination
  else .ofFault g.openDestination

def prepareDestination (g : StorageGuest) (storage : Storage) : Outcome ErrorKind Unit :=
  if storage.fstype = "9p" ∨ storage.fstype = "virtio-fs" then
    if g.destinationExists then .ok ()
    else .ofFault (g.createDestination.map fun _ => .msg "Create mount destination failed")
  else ensureDestinationExists g storage.mountPoint storage.fstype

def Storage.bareMount (storage : Storage) : BareMount where
  source := storage.source
  destination := storage.mountPoint
  fsType := storage.fstype
  flags := (parseMountFlagsAndOptions storage.options).1
  options := (parseMountFlagsAndOptions storage.options).2

def mountStorage (g : StorageGuest) (storage : Storage) : Act Agent ErrorKind Unit := do
  Act.lift (prepareDestination g storage)
  storage.bareMount.mount g

abbrev StorageHandler := StorageGuest → Storage → Act Agent ErrorKind String

def commonStorageHandler : StorageHandler := fun g storage => do
  mountStorage g storage
  pure storage.mountPoint

/-- `set_sandbox_storage` of the locked sandbox. -/
def countStorage (path : String) : Act Agent ErrorKind Bool := fun s =>
  let r := s.sandbox.setSandboxStorage path
  (.ok r.1, s.setSandbox r.2)

def ephemeralStorageHandler : StorageHandler := fun g storage => locked do
  let newStorage ← countStorage storage.mountPoint
  if newStorage then do
    Act.lift (.ofFault g.createPoint)
    commonStorageHandler g storage
  else pure ""

def parseOptions (optionList : List String) : Table String String :=
  optionList.foldl (fun options opt =>
    match opt.toList.splitOn '=' with
    | [key, value] => options.insert (String.ofList key) (String.ofList value)
    | _ => options) ∅

/-- `u32::from_str_radix(_, 8)`. -/
def parseOctal (s : String) : Outcome ErrorKind UInt32 :=
  match s.toList with
  | [] => .err (.parse "cannot parse integer from empty string")
  | '+' :: [] => .err (.parse "invalid digit found in string")
  | '+' :: digits => go 0 digits
  | digits => go 0 digits
where
  go (n : Nat) : List Char → Outcome ErrorKind UInt32
    | [] => .ok (UInt32.ofNat n)
    | c :: cs =>
      if '0' ≤ c ∧ c ≤ '7' then
        let n' := 8 * n + (c.toNat - '0'.toNat)
        if n' < 2 ^ 32 then go n' cs
        else .err (.parse "number too large to fit in target type")
      else .err (.parse "invalid digit found in string")

def setMode (g : StorageGuest) (mode : Option String) : Outcome ErrorKind Unit :=
  match mode with
  | none => .ok ()
  | some mode => do
    .ofFault g.pointMetadata
    let _ ← parseOctal mode
    .ofFault g.setPermissions

def localStorageHandler : StorageHandler := fun g storage => locked do
  let newStorage ← countStorage storage.mountPoint
  if newStorage then do
    Act.lift (.ofFault g.createPoint)
    Act.lift (setMode g ((parseOptions storage.options).lookup "mode"))
    pure ""
  else pure ""

def virtio9pStorageHandler : StorageHandler := commonStorageHandler

def virtiommioBlkStorageHandler : StorageHandler := commonStorageHandler

def virtiofsStorageHandler : StorageHandler := commonStorageHandler

def sIfblk : UInt32 := 0o060000

/-- The source that `virtio_blk_storage_handler` mounts. -/
def blkSource (g : StorageGuest) (storage : Storage) : Outcome ErrorKind String :=
  if startsWith storage.source "/dev" then do
    let mode ← g.sourceMode
    if mode &&& sIfblk = 0 then .err (.errorCode ("Invalid device " ++ storage.source))
    else .ok storage.source
  else g.pciDeviceName storage.source

def virtioBlkStorageHandler : StorageHandler := fun g storage => do
  let source ← Act.lift (blkSource g storage)
  commonStorageHandler g { storage with source := source }

def virtioScsiStorageHandler : StorageHandler := fun g storage => do
  let devPath ← Act.lift (g.scsiDeviceName storage.source)
  commonStorageHandler g { storage with source := devPath }

def storageHandlerList : List (String × StorageHandler) :=
  [("blk", virtioBlkStorageHandler), ("9p", virtio9pStorageHandler),
    ("virtio-fs", virtiofsStorageHandler), ("ephemeral", ephemeralStorageHandler),
    ("mmioblk", virtiommioBlkStorageHandler), ("local", localStorageHandler),
    ("scsi", virtioScsiStorageHandler)]

/-- The body of the loop of `add_storages`. -/
def addStorage : StorageHandler := fun g storage =>
  match storageHandlerList.lookup storage.driver with
  | none =>
    Act.fail (.errorCode ("Failed to find the storage handler " ++ storage.driver))
  | some handler => handler g storage

/-- Each storage takes the next of the guest's answers. -/
def addStorages (g : Nat → StorageGuest) : List Storage → Act Agent ErrorKind (List String)
  | [] => pure []
  | storage :: storages => do
    let mountPoint ← addStorage (g 0) storage
    let mountList ← addStorages (fun n => g (n + 1)) storages
    pure (if mountPoint = "" then mountList else mountPoint :: mountList)

end KataAgent
