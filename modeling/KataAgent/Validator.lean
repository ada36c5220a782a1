import KataAgent.GrpcSpec
import KataAgent.CgroupStats

namespace KataAgent
open Fallible
set_option autoImplicit true

/-- The file system as the validator asks for it; a failing call leaves the text of its error. -/
structure ValidatorGuest where
  /-- `Path::exists`. -/
  present : List Char → Bool
  canonicalize : List Char → Except String (List Char)
  readLink : List Char → Except String (List Char)
  /-- Whether `symlink_metadata` shows a link. -/
  isSymlink : List Char → Except String Bool

/-- `Component` of `std::path`. -/
inductive Component where
  | RootDir
  | CurDir
  | ParentDir
  | Normal (name : List Char)
  deriving DecidableEq

/-- A part of a path between slashes. -/
def Component.ofPart : List Char → Option Component
  | [] => none
  | ['.'] => none
  | ['.', '.'] => some .ParentDir
  | name => some (.Normal name)

/-- `Path::components`. -/
def components (path : List Char) : List Component :=
  match path.splitOn '/' with
  | [] :: parts =>
    if path = [] then [] else .RootDir :: parts.filterMap Component.ofPart
  | ['.'] :: parts => .CurDir :: parts.filterMap Component.ofPart
  | parts => parts.filterMap Component.ofPart

/-- `as_os_str`. -/
def Component.text : Component → List Char
  | .RootDir => ['/']
  | .CurDir => ['.']
  | .ParentDir => ['.', '.']
  | .Normal name => name

/-- `PathBuf::push` of a relative path. -/
def pushPath (path e : List Char) : List Char :=
  if path.getLast? = some '/' ∨ path = [] then path ++ e else path ++ '/' :: e

def invalid : Outcome ErrorKind α := .err (.nix .EINVAL)

/-- The end of a call that leaves the text of its error. -/
def ioOutcome : Except String α → Outcome ErrorKind α
  | .ok a => .ok a
  | .error e => .err (.io e)

def containNamespace (nses : List LinuxNamespace) (key : String) : Bool :=
  nses.any fun ns => ns.type = key

def getNamespacePath (nses : List LinuxNamespace) (key : String) : Outcome ErrorKind String :=
  match nses.find? fun ns => ns.type = key with
  | some ns => .ok ns.path
  | none => invalid

/-- The body of the loop of `rootfs`, on the names that are kept so far. -/
def cleanStep (stack : List (List Char)) (c : Component) : List (List Char) :=
  if stack = [] ∧ (c = .RootDir ∨ c = .ParentDir) then stack
  else if c = .ParentDir then stack.dropLast
  else stack ++ [c.text]

/-- The path without `.` and `..`. -/
def cleaned (path : List Char) : List Char :=
  ((components path).foldl cleanStep []).foldl pushPath ['/']

def rootfs (g : ValidatorGuest) (root : List Char) : Outcome ErrorKind Unit :=
  if !g.present root || root.head? ≠ some '/' then invalid
  else do
    let canon ← ioOutcome (g.canonicalize root)
    -- a link is in the path
    if components (cleaned root) ≠ components canon then invalid else return ()

def network (_ : Grpc.Spec) : Outcome ErrorKind Unit := return ()

def hostname (oci : Grpc.Spec) : Outcome ErrorKind Unit :=
  if oci.hostname = "" then return ()
  else
    match oci.linux with
    | none => invalid
    | some linux => if containNamespace linux.namespaces "uts" then return () else invalid

def security (oci : Grpc.Spec) : Outcome ErrorKind Unit := do
  let linux ← Outcome.ofUnwrap oci.linux
  if linux.maskedPaths = [] ∧ linux.readonlyPaths = [] then return ()
  else if containNamespace linux.namespaces "mount" then return ()
  else invalid

def idmapping (maps : List Grpc.LinuxIDMapping) : Outcome ErrorKind Unit :=
  if maps.any fun map => map.size > 0 then return () else invalid

def usernamespace (g : ValidatorGuest) (oci : Grpc.Spec) : Outcome ErrorKind Unit := do
  let linux ← Outcome.ofUnwrap oci.linux
  if containNamespace linux.namespaces "user" then
    if !g.present "/proc/self/ns/user".toList then
      .err (.errorCode "user namespace not supported!")
    else do
      idmapping linux.uidMappings
      idmapping linux.gidMappings
  else if linux.uidMappings ≠ [] ∨ linux.gidMappings ≠ [] then invalid
  else return ()

def cgroupnamespace (g : ValidatorGuest) (oci : Grpc.Spec) : Outcome ErrorKind Unit := do
  let linux ← Outcome.ofUnwrap oci.linux
  if containNamespace linux.namespaces "cgroup" ∧ !g.present "/proc/self/ns/cgroup".toList then
    .err (.errorCode "cgroup unsupported!")
  else return ()

def SYSCTLS : List String :=
  ["kernel.msgmax", "kernel.msgmnb", "kernel.msgmni", "kernel.sem", "kernel.shmall",
    "kernel.shmmax", "kernel.shmmni", "kernel.shm_rmid_forced"]

def checkHostNs (g : ValidatorGuest) (path : String) : Outcome ErrorKind Unit := do
  let realHpath ← ioOutcome (g.readLink "/proc/self/ns/net".toList)
  let isSymlink ← ioOutcome (g.isSymlink path.toList)
  if !isSymlink then return ()
  else do
    let realCpath ← ioOutcome (g.readLink path.toList)
    if components realCpath = components realHpath then invalid else return ()

/-- The end of the body of the loop of `sysctl`. -/
def sysctlUts (nses : List LinuxNamespace) (key : String) : Outcome ErrorKind Unit :=
  if containNamespace nses "uts" then
    if key = "kernel.domainname" then return ()
    else if key = "kernel.hostname" then invalid
    else invalid
  else invalid

/-- The body of the loop of `sysctl`, which goes on where this gives a value. -/
def sysctlKey (g : ValidatorGuest) (nses : List LinuxNamespace) (key : String) :
    Outcome ErrorKind Unit :=
  if key ∈ SYSCTLS ∨ startsWith key "fs.mqueue." then
    if containNamespace nses "ipc" then return () else invalid
  else if startsWith key "net." then
    if !containNamespace nses "network" then invalid
    else do
      let net ← getNamespacePath nses "network"
      if net = "" then return ()
      else do
        checkHostNs g net
        sysctlUts nses key
  else sysctlUts nses key

/-- An order in which the keys of a hash map are visited. -/
structure KeyOrder (m : Table String String) (keys : List String) : Prop where
  nodup : keys.Nodup
  mem : ∀ k, k ∈ keys ↔ k ∈ m

/-- `sysctl`, for an order of the keys. -/
def sysctl (g : ValidatorGuest) (keys : List String) (oci : Grpc.Spec) :
    Outcome ErrorKind Unit := do
  let linux ← Outcome.ofUnwrap oci.linux
  keys.forM (sysctlKey g linux.namespaces)

def rootlessEuidMapping (oci : Grpc.Spec) : Outcome ErrorKind Unit := do
  let linux ← Outcome.ofUnwrap oci.linux
  if !containNamespace linux.namespaces "user" then invalid
  else if linux.uidMappings = [] ∨ linux.gidMappings = [] then invalid
  else return ()

/-- The addition of the code, which a build may check for overflow. -/
def addU32 (checks : Bool) (a b : UInt32) : Outcome ErrorKind UInt32 :=
  if checks ∧ 2 ^ 32 ≤ a.toNat + b.toNat then .panic else return a + b

def hasIdmapping (checks : Bool) (id : UInt32) : List Grpc.LinuxIDMapping → Outcome ErrorKind Bool
  | [] => return false
  | map :: maps =>
    if map.containerID ≤ id then do
      let bound ← addU32 checks map.containerID map.size
      if id < bound then return true else hasIdmapping checks id maps
    else hasIdmapping checks id maps

/-- `str::parse` of an unsigned number below the bound. -/
def parseUnsigned (bound : Nat) (cs : List Char) : Outcome ErrorKind Nat :=
  match cs with
  | [] => .err (.parse "cannot parse integer from empty string")
  | '+' :: [] => .err (.parse "invalid digit found in string")
  | '+' :: digits => go 0 digits
  | digits => go 0 digits
where
  go (n : Nat) : List Char → Outcome ErrorKind Nat
    | [] => .ok n
    | c :: cs =>
      if c.isDigit then
        if 10 * n + (c.toNat - '0'.toNat) < bound then go (10 * n + (c.toNat - '0'.toNat)) cs
        else .err (.parse "number too large to fit in target type")
      else .err (.parse "invalid digit found in string")

/-- `str::parse::<u32>`. -/
def parseU32 (cs : List Char) : Outcome ErrorKind UInt32 := do
  let n ← parseUnsigned (2 ^ 32) cs
  return UInt32.ofNat n

/-- The body of the loop of `rootless_euid_mount`. -/
def rootlessOption (checks : Bool) (linux : Grpc.Linux) (opt : String) :
    Outcome ErrorKind Unit :=
  if startsWith opt "uid=" ∨ startsWith opt "gid=" then
    match opt.toList.splitOn '=' with
    | [_, value] => do
      let id ← parseU32 (trim value)
      let uid ← if startsWith opt "uid=" then hasIdmapping checks id linux.uidMappings
        else pure true
      if !uid then invalid
      else do
        let gid ← if startsWith opt "gid=" then hasIdmapping checks id linux.gidMappings
          else pure true
        if !gid then invalid else return ()
    | _ => invalid
  else return ()

def rootlessEuidMount (checks : Bool) (oci : Grpc.Spec) : Outcome ErrorKind Unit := do
  let linux ← Outcome.ofUnwrap oci.linux
  oci.mounts.forM fun mnt => mnt.options.forM (rootlessOption checks linux)

def rootlessEuid (checks : Bool) (oci : Grpc.Spec) : Outcome ErrorKind Unit := do
  rootlessEuidMapping oci
  rootlessEuidMount checks oci

structure Config where
  spec : Option Grpc.Spec
  rootlessEuid : Bool

def validate (g : ValidatorGuest) (keys : List String) (checks : Bool) (conf : Config) :
    Outcome ErrorKind Unit := do
  let oci ← Outcome.ofUnwrap conf.spec
  if oci.linux = none then invalid
  else
    match oci.root with
    | none => invalid
    | some root => do
      rootfs g root.path.toList
      network oci
      hostname oci
      security oci
      usernamespace g oci
      cgroupnamespace g oci
      sysctl g keys oci
      if conf.rootlessEuid then KataAgent.rootlessEuid checks oci else return ()

end KataAgent
