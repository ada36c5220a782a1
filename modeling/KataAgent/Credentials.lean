import Mathlib.Data.Finset.Basic
import Mathlib.Data.Finset.SDiff

namespace Credentials
set_option autoImplicit true

/-- The capabilities that the kernel asks for where credentials change. -/
structure Powers (κ : Type) where
  setgid : κ
  setuid : κ
  setpcap : κ

/-- What the kernel has of the user namespace of a process: the ids that have a mapping, and whether
`setgroups` is allowed in it. -/
structure IdRules where
  uidMapped : Nat → Bool
  gidMapped : Nat → Bool
  setgroups : Bool

/-- The id `-1`, which leaves an id as it is. -/
def unchanged : Nat := 4294967295

/-- `NGROUPS_MAX`. -/
def maxGroups : Nat := 65536

/-- The credentials of a process. Its real, effective and saved ids are always set together, and the
kernel sorts its groups. -/
structure Cred (κ : Type) where
  uid : Nat
  gid : Nat
  groups : Multiset Nat
  keepCaps : Bool
  noNewPrivs : Bool
  effective : Finset κ
  permitted : Finset κ
  inheritable : Finset κ
  bounding : Finset κ
  ambient : Finset κ

section
variable {κ : Type} [DecidableEq κ] (w : Powers κ) (r : IdRules) (c : Cred κ)

def Cred.setresgid (gid : Nat) : Option (Cred κ) :=
  if gid = unchanged then some c
  else if r.gidMapped gid = true ∧ (gid = c.gid ∨ w.setgid ∈ c.effective) then
    some { c with gid := gid }
  else none

/-- The groups that `setgroups` takes from a process with the capability. -/
def IdRules.Groups (groups : List Nat) : Prop :=
  r.setgroups = true ∧ groups.length ≤ maxGroups ∧ ∀ gid ∈ groups, r.gidMapped gid = true

instance (groups : List Nat) : Decidable (r.Groups groups) :=
  inferInstanceAs (Decidable (_ ∧ _ ∧ _))

def Cred.setgroups (groups : List Nat) : Option (Cred κ) :=
  if w.setgid ∈ c.effective ∧ r.Groups groups then some { c with groups := groups } else none

/-- What becomes of the capabilities where the user changes: those of root are lost with it, and
the permitted ones are kept on request. -/
def Cred.fixSetuid (uid : Nat) : Cred κ :=
  if c.uid = 0 ∧ uid ≠ 0 then
    { c with
      uid := uid, effective := ∅, permitted := if c.keepCaps then c.permitted else ∅, ambient := ∅ }
  else if c.uid ≠ 0 ∧ uid = 0 then { c with uid := uid, effective := c.permitted }
  else { c with uid := uid }

def Cred.setresuid (uid : Nat) : Option (Cred κ) :=
  if uid = unchanged then some c
  else if r.uidMapped uid = true ∧ (uid = c.uid ∨ w.setuid ∈ c.effective) then
    some (c.fixSetuid uid)
  else none

/-- The condition of `capset(2)`. -/
def Cred.Settable (effective permitted inheritable : Finset κ) : Prop :=
  permitted ⊆ c.permitted ∧ effective ⊆ permitted ∧ inheritable ⊆ c.inheritable ∪ c.bounding ∧
    (w.setpcap ∈ c.effective ∨ inheritable ⊆ c.inheritable ∪ c.permitted)

instance (effective permitted inheritable : Finset κ) :
    Decidable (c.Settable w effective permitted inheritable) :=
  inferInstanceAs (Decidable (_ ∧ _))

/-- What is no longer permitted and inheritable is no longer ambient. -/
def Cred.capset (effective permitted inheritable : Finset κ) : Option (Cred κ) :=
  if c.Settable w effective permitted inheritable then some { c with
    effective := effective, permitted := permitted, inheritable := inheritable
    ambient := c.ambient ∩ (permitted ∩ inheritable) }
  else none

def Cred.dropBounding (x : κ) : Option (Cred κ) :=
  if w.setpcap ∈ c.effective then some { c with bounding := c.bounding.erase x } else none

def Cred.raiseAmbient (x : κ) : Option (Cred κ) :=
  if x ∈ c.permitted ∩ c.inheritable then some { c with ambient := insert x c.ambient } else none

def Cred.lowerAmbient (x : κ) : Cred κ := { c with ambient := c.ambient.erase x }

/-- What root gets from a program, and what others do. -/
def Cred.granted : Finset κ :=
  if c.uid = 0 then
    (if c.noNewPrivs then (c.inheritable ∪ c.bounding) ∩ c.permitted
      else c.inheritable ∪ c.bounding) ∪ c.ambient
  else c.ambient

/-- `execve` of a program without set-user-ID bits and capabilities of its own. -/
def Cred.exec : Cred κ :=
  { c with keepCaps := false, effective := c.granted, permitted := c.granted }

/-- Only permitted capabilities are effective, and only those that are also inheritable ambient. -/
structure Cred.Sound : Prop where
  effective : c.effective ⊆ c.permitted
  ambient : c.ambient ⊆ c.permitted ∩ c.inheritable

variable {w r c}

theorem Cred.dropBounding_eq (h : w.setpcap ∈ c.effective) (x : κ) :
    c.dropBounding w x = some { c with bounding := c.bounding.erase x } := if_pos h

/-- The id that is asked for, where it is one. -/
def chosen (id old : Nat) : Nat := if id = unchanged then old else id

/-- With the capability, only an id without a mapping is refused. -/
theorem Cred.setresgid_eq (h : w.setgid ∈ c.effective) {gid : Nat} : c.setresgid w r gid =
    if gid = unchanged ∨ r.gidMapped gid = true then some { c with gid := chosen gid c.gid }
    else none := by
  rw [setresgid, chosen]
  by_cases hu : gid = unchanged
  · rw [if_pos hu, if_pos (.inl hu), if_pos hu]
  · simp only [hu, h, or_true, and_true, false_or, if_false]

theorem Cred.setresuid_eq (h : w.setuid ∈ c.effective) {uid : Nat} : c.setresuid w r uid =
    if uid = unchanged ∨ r.uidMapped uid = true then
      some (if uid = unchanged then c else c.fixSetuid uid)
    else none := by
  rw [setresuid]
  by_cases hu : uid = unchanged
  · rw [if_pos hu, if_pos (.inl hu), if_pos hu]
  · simp only [hu, h, or_true, and_true, false_or, if_false]

/-- The ambient set gives root nothing, as it is inheritable and permitted. -/
theorem Cred.Sound.granted_root (h : c.Sound) (hu : c.uid = 0) : c.granted =
    if c.noNewPrivs then (c.inheritable ∪ c.bounding) ∩ c.permitted
    else c.inheritable ∪ c.bounding := by
  rw [granted, if_pos hu, Finset.union_eq_left]
  intro x hx
  obtain ⟨hp, hi⟩ := Finset.mem_inter.1 (h.ambient hx)
  have hgain : x ∈ c.inheritable ∪ c.bounding := Finset.mem_union_left _ hi
  split
  · exact Finset.mem_inter.2 ⟨hgain, hp⟩
  · exact hgain

end

end Credentials
