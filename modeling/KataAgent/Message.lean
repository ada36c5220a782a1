import KataAgent.Fallible
import Mathlib.Data.List.Infix

namespace KataAgent
open Fallible
set_option autoImplicit true

/-- The errno values that the agent's own code names, and any other one. -/
inductive Errno where
  | EINVAL
  | ETIME
  | EIO
  | EINTR
  | EBUSY
  | ENOENT
  | EPIPE
  | ETIMEDOUT
  | UnknownErrno
  | other (code : Nat)
  deriving DecidableEq, Repr

def ESRCH : Errno := .other 3

def EEXIST : Errno := .other 17

/-- The error kinds of `rustjail::errors`; a foreign error keeps its text only. -/
inductive ErrorKind where
  | msg (text : String)
  | errorCode (text : String)
  | nix (errno : Errno)
  | io (text : String)
  | ffi (text : String)
  | caps (text : String)
  | serde (text : String)
  | parse (text : String)
  | utf8 (bytes : List UInt8)
  | ip (text : String)
  deriving DecidableEq, Repr

/-- A system call that succeeds or fails with an errno. -/
def syscall (fault : Option Errno) : Outcome ErrorKind Unit :=
  .ofFault (fault.map .nix)

@[simp] theorem syscall_eq_ok : syscall fault = .ok u ↔ fault = none := by
  simp [syscall]

@[simp] theorem syscall_ne_panic : syscall fault ≠ .panic := by
  simp [syscall]

/-- The `str` predicates of the source, on the characters of the two strings. -/
def startsWith (s p : String) : Prop := p.toList <+: s.toList

def endsWith (s p : String) : Prop := p.toList <:+ s.toList

def contains (s p : String) : Prop := p.toList <:+: s.toList

instance : Decidable (startsWith s p) := inferInstanceAs (Decidable (p.toList <+: s.toList))

instance : Decidable (endsWith s p) := inferInstanceAs (Decidable (p.toList <:+ s.toList))

theorem contains_iff : (∃ t ∈ s.toList.tails, p.toList <+: t) ↔ contains s p := by
  simp only [contains, List.infix_iff_prefix_suffix, List.mem_tails, and_comm]

instance : Decidable (contains s p) := decidable_of_iff _ contains_iff

theorem contains_of_startsWith_append (h : startsWith s (q ++ p)) : contains s p := by
  rw [startsWith] at h
  rw [String.toList_append] at h
  obtain ⟨r, hr⟩ := h
  exact ⟨q.toList, r, hr⟩

structure LinuxNamespace where
  type : String
  path : String
  deriving DecidableEq, Repr

structure LinuxIDMapping where
  hostID : Nat
  containerID : Nat
  size : Nat
  deriving DecidableEq, Repr

structure LinuxDevice where
  path : String
  type : String
  major : Int
  minor : Int
  fileMode : Nat
  uid : Nat
  gid : Nat
  deriving DecidableEq, Repr

structure LinuxDeviceCgroup where
  allow : Bool
  type : String
  major : Int
  minor : Int
  access : String
  deriving DecidableEq, Repr

structure LinuxResources where
  devices : List LinuxDeviceCgroup
  deriving DecidableEq, Repr

structure Linux where
  uidMappings : List LinuxIDMapping
  gidMappings : List LinuxIDMapping
  sysctl : List (String × String)
  resources : Option LinuxResources
  namespaces : List LinuxNamespace
  devices : List LinuxDevice
  deriving DecidableEq, Repr

structure POSIXRlimit where
  type : String
  hard : Nat
  soft : Nat
  deriving DecidableEq, Repr

structure User where
  uid : Nat
  gid : Nat
  additionalGids : List Nat
  deriving DecidableEq, Repr

structure LinuxCapabilities where
  bounding : List String
  effective : List String
  inheritable : List String
  permitted : List String
  ambient : List String
  deriving DecidableEq, Repr

/-- The `Process` message of `oci.proto`. -/
structure OCIProcess where
  terminal : Bool
  user : Option User
  args : List String
  env : List String
  cwd : String
  capabilities : Option LinuxCapabilities
  rlimits : List POSIXRlimit
  noNewPrivileges : Bool
  oomScoreAdj : Int
  deriving DecidableEq, Repr

structure Root where
  path : String
  readonly : Bool
  deriving DecidableEq, Repr

structure Hook where
  path : String
  args : List String
  env : List String
  timeout : Int
  deriving DecidableEq, Repr

structure Hooks where
  prestart : List Hook
  poststart : List Hook
  poststop : List Hook
  deriving DecidableEq, Repr

structure Spec where
  process : Option OCIProcess
  root : Option Root
  hostname : String
  hooks : Option Hooks
  linux : Option Linux
  deriving DecidableEq, Repr

/-- The `Device` message of `agent.proto`. -/
structure Device where
  id : String
  type : String
  vmPath : String
  containerPath : String
  options : List String
  deriving DecidableEq, Repr

/-- The `Storage` message of `agent.proto`. -/
structure Storage where
  driver : String
  source : String
  fstype : String
  options : List String
  mountPoint : String
  deriving DecidableEq, Repr

end KataAgent
