import Mathlib.Data.List.DropRight
import KataAgent.CgroupPaths
import KataAgent.TreePaths

namespace KataAgent
open Fallible TreePaths
set_option autoImplicit true

abbrev MsFlags := UInt64

def MS_RDONLY : MsFlags := 1
def MS_NOSUID : MsFlags := 2
def MS_NODEV : MsFlags := 4
def MS_NOEXEC : MsFlags := 8
def MS_SYNCHRONOUS : MsFlags := 16
def MS_REMOUNT : MsFlags := 32
def MS_MANDLOCK : MsFlags := 64
def MS_DIRSYNC : MsFlags := 128
def MS_NOATIME : MsFlags := 1024
def MS_NODIRATIME : MsFlags := 2048
def MS_BIND : MsFlags := 4096
def MS_REC : MsFlags := 16384
def MS_UNBINDABLE : MsFlags := 0x20000
def MS_PRIVATE : MsFlags := 0x40000
def MS_SLAVE : MsFlags := 0x80000
def MS_SHARED : MsFlags := 0x100000
def MS_RELATIME : MsFlags := 0x200000
def MS_STRICTATIME : MsFlags := 0x1000000

def PROPAGATION : List (String × MsFlags) :=
  [("shared", MS_SHARED ||| MS_REC), ("private", MS_PRIVATE ||| MS_REC),
    ("slave", MS_SLAVE ||| MS_REC)]

def OPTIONS : List (String × Bool × MsFlags) :=
  [("defaults", false, 0), ("ro", false, MS_RDONLY), ("rw", true, MS_RDONLY),
    ("suid", true, MS_NOSUID), ("nosuid", false, MS_NOSUID), ("dev", true, MS_NODEV),
    ("nodev", false, MS_NODEV), ("exec", true, MS_NOEXEC), ("noexec", false, MS_NOEXEC),
    ("sync", false, MS_SYNCHRONOUS), ("async", true, MS_SYNCHRONOUS),
    ("dirsync", false, MS_DIRSYNC), ("remount", false, MS_REMOUNT), ("mand", false, MS_MANDLOCK),
    ("nomand", true, MS_MANDLOCK), ("atime", true, MS_NOATIME), ("noatime", false, MS_NOATIME),
    ("diratime", true, MS_NODIRATIME), ("nodiratime", false, MS_NODIRATIME),
    ("bind", false, MS_BIND), ("rbind", false, MS_BIND ||| MS_REC),
    ("unbindable", false, MS_UNBINDABLE), ("runbindable", false, MS_UNBINDABLE ||| MS_REC),
    ("private", false, MS_PRIVATE), ("rprivate", false, MS_PRIVATE ||| MS_REC),
    ("shared", false, MS_SHARED), ("rshared", false, MS_SHARED ||| MS_REC),
    ("slave", false, MS_SLAVE), ("rslave", false, MS_SLAVE ||| MS_REC),
    ("relatime", false, MS_RELATIME), ("norelatime", true, MS_RELATIME),
    ("strictatime", false, MS_STRICTATIME), ("nostrictatime", true, MS_STRICTATIME)]

/-- The `Mount` message of `oci.proto`. -/
structure Mount where
  destination : Chars
  fieldType : String
  source : Chars
  options : List String
  deriving DecidableEq

structure RootfsLinux where
  rootfsPropagation : String
  devices : List LinuxDevice

/-- What `init_rootfs` reads of a spec. -/
structure RootfsSpec where
  root : Option Root
  mounts : List Mount
  linux : Option RootfsLinux

inductive SFlag where
  | S_IFCHR
  | S_IFBLK
  | S_IFIFO
  deriving DecidableEq

/-- The system calls of the setup. `create` is an `open` with `O_CREAT`. -/
inductive RootfsCall where
  | canonicalize (path : Chars)
  | stat (path : Chars)
  | getcwd
  | chdir (path : Chars)
  | mount (source : Option Chars) (target : Chars) (fstype : Option String) (flags : MsFlags)
    (data : Option String)
  | mkdir (dir : List (Step Chars))
  | create (path : Chars)
  | close
  | symlink (original link : Chars)
  | mknod (path : Chars) (kind : SFlag) (mode : Nat) (dev : UInt64)
  | chown (path : Chars) (uid gid : UInt32)
  | remove (path : Chars)
  | umask (mode : Nat)
  deriving DecidableEq

/-- The answers of the guest to the system calls, each with the calls before it, the latest first.
The rootfs stays in place. -/
structure RootfsGuest where
  canonicalize : List RootfsCall → Chars → Outcome ErrorKind Canonical
  utf8 : Canonical → Bool
  isFile : List RootfsCall → Canonical → Bool
  present : List RootfsCall → List (Step Chars) → Bool
  getcwd : List RootfsCall → Outcome ErrorKind Chars
  umask : List RootfsCall → Nat
  fault : List RootfsCall → RootfsCall → Option ErrorKind
  order : HashOrder
  order_nodup : ∀ m, (order.order m).Nodup
  rootfs_present : ∀ path root, canonicalize [] path = .ok root →
    ∀ h dir, dir <+: pathSteps root.text → present h dir = true

abbrev Setup := Act (List RootfsCall) ErrorKind

/-- A call with an answer. -/
def ask (c : RootfsCall) (f : List RootfsCall → Outcome ErrorKind α) : Setup α :=
  fun h => (f h, c :: h)

def perform (g : RootfsGuest) (c : RootfsCall) : Setup Unit := ask c fun h => .ofFault (g.fault h c)

/-- A call whose error is dropped. -/
def attempt (g : RootfsGuest) (c : RootfsCall) : Setup Bool :=
  ask c fun h => .ok (g.fault h c).isNone

def canonicalize (g : RootfsGuest) (path : Chars) : Setup Canonical :=
  ask (.canonicalize path) fun h => g.canonicalize h path

def isFile (g : RootfsGuest) (path : Canonical) : Setup Bool :=
  ask (.stat path.text) fun h => .ok (g.isFile h path)

def getcwd (g : RootfsGuest) : Setup Chars := ask .getcwd g.getcwd

def umask (g : RootfsGuest) (mode : Nat) : Setup Nat := ask (.umask mode) fun h => .ok (g.umask h)

/-- `to_str().unwrap()`. -/
def toStr (g : RootfsGuest) (path : Canonical) : Setup Chars :=
  .lift (if g.utf8 path then .ok path.text else .panic)

/-- `as_errno().unwrap()` of the error, which is logged. -/
def withErrno (x : Setup Unit) : Setup Unit := fun h =>
  match x h with
  | (.ok (), t) => (.ok (), t)
  | (.err (.nix e), t) => (.err (.nix e), t)
  | (_, t) => (.panic, t)

/-- `fs::create_dir_all` of the rest of a path, below what is there. Its error is only logged. -/
def createDirAll (g : RootfsGuest) (above : List (Step Chars)) : List (Step Chars) → Setup Unit
  | [] => pure ()
  | x :: rest => do
    let there ← Act.read (g.present · (above ++ [x]))
    let made ← (if there then pure true else attempt g (.mkdir (above ++ [x])))
    if made then createDirAll g (above ++ [x]) rest else pure ()

/-- The directory that a mount needs: for a file, the parent of its path. -/
def mountDir (file : Bool) (dest : Chars) : Outcome ErrorKind (List (Step Chars)) :=
  if file then
    if pathSteps dest = [] then .panic else .ok (pathSteps dest).dropLast
  else .ok (pathSteps dest)

def parseMount (m : Mount) : MsFlags × String :=
  let flags := m.options.foldl (fun flags o =>
    match OPTIONS.lookup o with
    | some (true, fl) => flags &&& ~~~fl
    | some (false, fl) => flags ||| fl
    | none => flags) 0
  (flags, ",".intercalate (m.options.filter fun o => (OPTIONS.lookup o).isNone))

/-- `stat`, whose error is logged. -/
def tryStat (g : RootfsGuest) (path : Chars) : Setup Unit :=
  ask (.stat path) fun h =>
    match g.fault h (.stat path) with
    | none => .ok ()
    | some (.nix _) => .ok ()
    | some _ => .panic

/-- The part of `mount_from` that finds the source and makes a place for it. -/
def mountSource (g : RootfsGuest) (m : Mount) (dest : Chars) : Setup Chars :=
  if m.fieldType = "bind" then do
    let src ← canonicalize g m.source
    let file ← isFile g src
    let dir ← Act.lift (mountDir file dest)
    createDirAll g [] dir
    let file ← isFile g src
    let _ ← (if file then attempt g (.create dest) else pure true)
    toStr g src
  else do
    createDirAll g [] (pathSteps dest)
    pure m.source

def mountFrom (g : RootfsGuest) (m : Mount) (rootfs : Chars) (flags : MsFlags) (data : String) :
    Setup Unit := do
  let dest := rootfs ++ m.destination
  let src ← mountSource g m dest
  tryStat g dest
  withErrno (perform g (.mount (some src) dest (some m.fieldType) flags (some data)))
  if flags &&& MS_BIND = MS_BIND ∧
      flags &&& ~~~(MS_REC ||| MS_REMOUNT ||| MS_BIND ||| MS_PRIVATE ||| MS_SHARED ||| MS_SLAVE) ≠ 0
  then withErrno (perform g (.mount (some dest) dest none (flags ||| MS_REMOUNT) none))

/-- What follows the last slash. -/
def mountBase (mount : Chars) : Chars := mount.rtakeWhile (· ≠ '/')

/-- The link of a controller whose name is not that of its mount. `&src[1..]` takes the slash off
that the destination starts with. -/
def linkController (g : RootfsGuest) (destination key base : Chars) : Setup Unit :=
  if key ≠ base then
    perform g (.symlink (destination ++ '/' :: base) (destination ++ '/' :: key).tail)
  else pure ()

/-- The body of the loop of `mount_cgroups`, with the sources that are mounted already. -/
def mountCgroup (g : RootfsGuest) (m : Mount) (rootfs : Chars) (flags : MsFlags)
    (cpath mounts : Table Chars Chars) (srcs : List Chars) (key : Chars) : Setup (List Chars) :=
  match mounts.lookup key, cpath.lookup key with
  | some mount, some source =>
    let base := mountBase mount
    if source ∈ srcs then do
      linkController g m.destination key base
      return srcs
    else do
      mountFrom g ⟨m.destination ++ '/' :: base, "bind", source, []⟩ rootfs
        (flags ||| MS_REC ||| MS_BIND) ""
      linkController g m.destination key base
      return source :: srcs
  | _, _ => return srcs

def mountCgroups (g : RootfsGuest) (m : Mount) (rootfs : Chars) (flags : MsFlags)
    (cpath mounts : Table Chars Chars) : Setup Unit := do
  mountFrom g ⟨m.destination, "tmpfs", "tmpfs".toList, []⟩ rootfs
    (MS_NOEXEC ||| MS_NOSUID ||| MS_NODEV) ""
  let olddir ← getcwd g
  perform g (.chdir rootfs)
  let _ ← (g.order.order mounts).foldlM (mountCgroup g m rootfs flags cpath mounts) []
  perform g (.chdir olddir)
  if flags &&& MS_RDONLY = MS_RDONLY then
    let dest := rootfs ++ m.destination
    perform g (.mount (some dest) dest none (flags ||| MS_BIND ||| MS_REMOUNT) none)

/-- The test of a destination in `init_rootfs`. -/
def Mount.Accepted (m : Mount) : Prop :=
  m.destination.head? = some '/' ∧ ¬ "..".toList <:+: m.destination

instance {m : Mount} : Decidable m.Accepted := inferInstanceAs (Decidable (_ ∧ _))

/-- The body of the loop of `init_rootfs`. -/
def mountOne (g : RootfsGuest) (rootfs : Chars) (cpath mounts : Table Chars Chars) (m : Mount) :
    Setup Unit :=
  let (flags, data) := parseMount m
  if ¬ m.Accepted then .fail (.nix .EINVAL)
  else if m.fieldType = "cgroup" then mountCgroups g m rootfs flags cpath mounts
  else
    mountFrom g m rootfs (if m.destination = "/dev".toList then flags &&& ~~~MS_RDONLY else flags)
      data

def SYMLINKS : List (String × String) :=
  [("/proc/self/fd", "dev/fd"), ("/proc/self/fd/0", "dev/stdin"),
    ("/proc/self/fd/1", "dev/stdout"), ("/proc/self/fd/2", "dev/stderr")]

def link (g : RootfsGuest) (original link : String) : Setup Unit :=
  perform g (.symlink original.toList link.toList)

def defaultSymlinks (g : RootfsGuest) : Setup Unit := do
  let kcore ← Act.read (g.present · (pathSteps "/proc/kcore".toList))
  (if kcore then link g "/proc/kcore" "dev/kcore" else pure ())
  SYMLINKS.forM fun (src, dst) => link g src dst

def LINUXDEVICETYPE : List (String × SFlag) := [("c", .S_IFCHR), ("b", .S_IFBLK), ("p", .S_IFIFO)]

def makedev (major minor : UInt64) : UInt64 :=
  (minor &&& (0xff : UInt64)) ||| ((major &&& (0xfff : UInt64)) <<< (8 : UInt64)) |||
    ((minor &&& ~~~(0xff : UInt64)) <<< (12 : UInt64)) |||
    ((major &&& ~~~(0xfff : UInt64)) <<< (32 : UInt64))

def mknodDev (g : RootfsGuest) (dev : LinuxDevice) : Setup Unit :=
  match LINUXDEVICETYPE.lookup dev.type with
  | some f => do
    let path := dev.path.toList.tail
    perform g (.mknod path f (dev.fileMode &&& 0o7777)
      (makedev (UInt64.ofInt dev.major) (UInt64.ofInt dev.minor)))
    perform g (.chown path (UInt32.ofNat dev.uid) (UInt32.ofNat dev.gid))
  | none => .fail (.errorCode "invalid spec")

def bindDev (g : RootfsGuest) (dev : LinuxDevice) : Setup Unit := do
  let path := dev.path.toList.tail
  perform g (.create path)
  perform g .close
  perform g (.mount (some dev.path.toList) path none MS_BIND none)

/-- A character device of the guest that every container has. -/
def defaultDevice (path : String) (major minor : Int) : LinuxDevice :=
  ⟨path, "c", major, minor, 0o066, 0xffffffff, 0xffffffff⟩

def DEFAULT_DEVICES : List LinuxDevice :=
  [defaultDevice "/dev/null" 1 3, defaultDevice "/dev/zero" 1 5, defaultDevice "/dev/full" 1 7,
    defaultDevice "/dev/tty" 5 0, defaultDevice "/dev/urandom" 1 9, defaultDevice "/dev/random" 1 8]

def createDevice (g : RootfsGuest) (bind : Bool) (dev : LinuxDevice) : Setup Unit :=
  if bind then bindDev g dev else mknodDev g dev

def createDevices (g : RootfsGuest) (devices : List LinuxDevice) (bind : Bool) : Setup Unit := do
  let old ← umask g 0
  DEFAULT_DEVICES.forM (createDevice g bind)
  devices.forM fun dev =>
    if ¬ startsWith dev.path "/dev" ∨ contains dev.path ".." then
      .fail (.errorCode (dev.path ++ " is not a valid device path"))
    else createDevice g bind dev
  let _ ← umask g old

def ensurePtmx (g : RootfsGuest) : Setup Unit := do
  let _ ← attempt g (.remove "dev/ptmx".toList)
  link g "pts/ptmx" "dev/ptmx"

/-- The part of `init_rootfs` after its mounts. -/
def populateRootfs (g : RootfsGuest) (linux : RootfsLinux) (rootfs : Chars) (bindDevice : Bool) :
    Setup Unit := do
  let olddir ← getcwd g
  perform g (.chdir rootfs)
  defaultSymlinks g
  createDevices g linux.devices bindDevice
  ensurePtmx g
  perform g (.chdir olddir)

/-- The part of `init_rootfs` from the canonical rootfs on. -/
def fillRootfs (g : RootfsGuest) (linux : RootfsLinux) (ms : List Mount) (root : Canonical)
    (cpath mounts : Table Chars Chars) (bindDevice : Bool) : Setup Unit := do
  let flags := MS_REC ||| (PROPAGATION.lookup linux.rootfsPropagation).getD MS_SLAVE
  let rootfs ← toStr g root
  perform g (.mount none ['/'] none flags none)
  perform g (.mount (some rootfs) rootfs none (MS_BIND ||| MS_REC) none)
  ms.forM (mountOne g rootfs cpath mounts)
  populateRootfs g linux rootfs bindDevice

def initRootfs (g : RootfsGuest) (spec : RootfsSpec) (cpath mounts : Table Chars Chars)
    (bindDevice : Bool) : Setup Unit := do
  let linux ← Act.lift (.ofUnwrap spec.linux)
  let root ← Act.lift (.ofUnwrap spec.root)
  let root ← canonicalize g root.path.toList
  fillRootfs g linux spec.mounts root cpath mounts bindDevice

end KataAgent
