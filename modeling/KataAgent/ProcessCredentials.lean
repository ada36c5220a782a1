import KataAgent.Capabilities
import KataAgent.ChildConfinement
import KataAgent.Credentials
import KataAgent.SyncCompletion

namespace KataAgent
open Fallible Credentials
set_option autoImplicit true

abbrev ProcessCred := Cred Capability

def capPowers : Powers Capability := ⟨.setgid, .setuid, .setpcap⟩

/-- All capabilities, as `caps::all` lists them. -/
def capsAll : Finset Capability := Capability.all.toFinset

/-- `caps::ambient::set`, which walks over all capabilities and ends with the first refusal. -/
def setAmbient (s : Finset Capability) : List Capability → ProcessCred → ProcessCred × Bool
  | [], c => (c, true)
  | x :: xs, c =>
    if x ∈ s then
      match c.raiseAmbient x with
      | none => (c, false)
      | some c' => setAmbient s xs c'
    else setAmbient s xs (c.lowerAmbient x)

/-- Take the new credentials, or keep the old ones with the refusal. -/
def taken (c : ProcessCred) : Option ProcessCred → ProcessCred × Bool
  | none => (c, false)
  | some c' => (c', true)

/-- The calls of the crate that `drop_priviledges` makes; the others are not supported here. -/
def CapsCall.perform (order : List Capability) (c : ProcessCred) : CapsCall → ProcessCred × Bool
  | .drop .bounding x => taken c (c.dropBounding capPowers x)
  | .set .effective s => taken c (c.capset capPowers s c.permitted c.inheritable)
  | .set .permitted s => taken c (c.capset capPowers c.effective s c.inheritable)
  | .set .inheritable s => taken c (c.capset capPowers c.effective c.permitted s)
  | .set .ambient s => setAmbient s order c
  | _ => (c, false)

/-- The credentials after the calls of a log, which has its last call first. -/
def credAfter (order : List Capability) (c : ProcessCred) (log : List CapsCall) : ProcessCred :=
  log.foldr (fun call c => (call.perform order c).1) c

/-- How the crate walks over sets, and the texts of its errors. -/
structure CapsCrate where
  order : Finset Capability → List Capability
  nodup_order : ∀ s, (order s).Nodup
  mem_order : ∀ s c, c ∈ order s ↔ c ∈ s
  refusal : CapsCall → String

/-- The crate on a kernel that keeps the credentials. -/
def CapsCrate.guest (g : CapsCrate) (c : ProcessCred) : CapsGuest where
  order := g.order
  nodup_order := g.nodup_order
  mem_order := g.mem_order
  fault := fun log call =>
    if (call.perform (g.order capsAll) (credAfter (g.order capsAll) c log)).2 then none
    else some (g.refusal call)

def LinuxCapabilities.message (caps : LinuxCapabilities) : Grpc.LinuxCapabilities :=
  ⟨caps.bounding, caps.effective, caps.inheritable, caps.permitted, caps.ambient⟩

/-- What a call of the start makes of the credentials; `none` is its refusal. -/
def SysCall.cred (g : CapsCrate) (r : IdRules) (c : ProcessCred) : SysCall → Option ProcessCred
  | .setKeepCapabilities on => some { c with keepCaps := on }
  | .setresgid gid => c.setresgid capPowers r gid
  | .setresuid uid => c.setresuid capPowers r uid
  | .resetEffective => c.capset capPowers capsAll c.permitted c.inheritable
  | .setgroups groups => c.setgroups capPowers r groups
  | .setNoNewPrivileges => some { c with noNewPrivs := true }
  | .dropPriviledges caps =>
    match KataAgent.dropPriviledges (g.guest c) caps.message [] with
    | (.ok (), log) => some (credAfter (g.order capsAll) c log)
    | _ => none
  | _ => some c

def Instr.cred (g : CapsCrate) (r : IdRules) (c : ProcessCred) : Instr → Option ProcessCred
  | .call x => x.cred g r c
  | _ => some c

/-- The credentials of a process that gets through a list, when all that does not set them
succeeds. -/
def credRun (g : CapsCrate) (r : IdRules) (is : List Instr) (c : ProcessCred) :
    Option ProcessCred :=
  is.foldlM (Instr.cred g r) c

/-- The calls whose outcome is that of the credentials. -/
def SysCall.credential : SysCall → Bool
  | .setKeepCapabilities _ | .setresgid _ | .setresuid _ | .resetEffective | .setgroups _ => true
  | .setNoNewPrivileges | .dropPriviledges _ => true
  | _ => false

def Instr.credential : Instr → Bool
  | .call x => x.credential
  | _ => false

/-- The guest of a setup, which may refuse all that does not set credentials. -/
structure SetupGuest where
  crate : CapsCrate
  ids : IdRules
  completes : Instr → Bool

def setupStep (g : SetupGuest) (c : ProcessCred) (i : Instr) : Option ProcessCred :=
  if i.credential = true ∨ g.completes i = true then i.cred g.crate g.ids c else none

/-- The credentials of a process that gets through a list. -/
def setupRun (g : SetupGuest) (is : List Instr) (c : ProcessCred) : Option ProcessCred :=
  is.foldlM (setupStep g) c

/-- The steps of a list that set no credentials succeed. -/
def SetupGuest.Completes (g : SetupGuest) (is : List Instr) : Prop :=
  ∀ i ∈ is, i.credential = true ∨ g.completes i = true

/-- The sets that the lists of a request name, in the reading of the table. -/
def LinuxCapabilities.sets (caps : LinuxCapabilities) (cset : CapSet) : Finset Capability :=
  toCapshashset (caps.message.named cset)

/-- Root of the guest, as the agent is. -/
structure FullRoot (c : ProcessCred) : Prop where
  uid : c.uid = 0
  effective : c.effective = capsAll
  permitted : c.permitted = capsAll
  ambient : c.ambient ⊆ c.inheritable

/-- What is asked for is consistent: no capability is effective that is not permitted, none is
inheritable that is out of bounds, nor one that is not permitted where the right to add it is given
up before. -/
structure LinuxCapabilities.Consistent (caps : LinuxCapabilities) (c : ProcessCred) : Prop where
  effective : caps.sets .effective ⊆ caps.sets .permitted
  bounded : caps.sets .inheritable ⊆ c.inheritable ∪ (c.bounding ∩ caps.sets .bounding)
  capped : .setpcap ∈ caps.sets .effective ∨
    caps.sets .inheritable ⊆ c.inheritable ∪ caps.sets .permitted

/-- The ids and the groups of a user can be taken. -/
structure User.Taken (user : User) (r : IdRules) : Prop where
  uid : user.uid = unchanged ∨ r.uidMapped user.uid = true
  gid : user.gid = unchanged ∨ r.gidMapped user.gid = true
  groups : user.additionalGids ≠ [] → r.Groups user.additionalGids

/-- A process about to execute a program has what was asked for, but for an id `-1`. What the program
then gets is, for root, what is inheritable or within bounds, and for others what is ambient. -/
structure LinuxCapabilities.Granted (caps : LinuxCapabilities) (user : User) (nnp : Bool)
    (c c' : ProcessCred) : Prop where
  uid : c'.uid = chosen user.uid c.uid
  gid : c'.gid = chosen user.gid c.gid
  groups : c'.groups = if user.additionalGids = [] then c.groups else user.additionalGids
  noNewPrivs : c'.noNewPrivs = (c.noNewPrivs || nnp)
  effective : c'.effective = caps.sets .effective
  permitted : c'.permitted = caps.sets .permitted
  inheritable : c'.inheritable = caps.sets .inheritable
  bounding : c'.bounding = c.bounding ∩ caps.sets .bounding
  ambient : c'.ambient ⊆ caps.sets .permitted ∩ caps.sets .inheritable
  every_ambient : caps.sets .ambient ⊆ caps.sets .permitted ∩ caps.sets .inheritable →
    c'.ambient = caps.sets .ambient
  /-- A list that has neither of the two names that the table lacks is read as it is written. -/
  named : ∀ cset, "CAP_AUDIT_CONTROL" ∉ caps.message.named cset →
    "CAP_MAC_ADMIN" ∉ caps.message.named cset →
    ∀ x : Capability, x ∈ caps.sets cset ↔ x.toString ∈ caps.message.named cset
  root : c'.uid = 0 → c'.exec.effective =
    if c'.noNewPrivs then (c'.inheritable ∪ c'.bounding) ∩ caps.sets .permitted
    else c'.inheritable ∪ c'.bounding
  others : c'.uid ≠ 0 → c'.exec.effective = c'.ambient

section
variable {g : CapsCrate} {r : IdRules} {c c' : ProcessCred} {order : List Capability} {s : Finset Capability}
  {call : CapsCall} {calls log : List CapsCall} {caps : LinuxCapabilities}

theorem subset_capsAll (s : Finset Capability) : s ⊆ capsAll := fun x _ =>
  List.mem_toFinset.2 (Capability.mem_all x)

theorem mem_capsAll (x : Capability) : x ∈ capsAll :=
  subset_capsAll {x} (Finset.mem_singleton_self x)

/-- The credentials after calls that must all succeed. -/
def performAll (order : List Capability) : List CapsCall → ProcessCred → Option ProcessCred
  | [], c => some c
  | call :: calls, c =>
    if (call.perform order c).2 then performAll order calls (call.perform order c).1 else none

theorem performAll_append (calls' : List CapsCall) : performAll order (calls ++ calls') c =
    (performAll order calls c).bind (performAll order calls') := by
  induction calls generalizing c with
  | nil => rfl
  | cons call calls ih =>
    rw [List.cons_append, performAll, performAll]
    split
    · exact ih
    · rfl

theorem guest_call_ok (h : (call.perform (g.order capsAll) (credAfter (g.order capsAll) c log)).2) :
    (g.guest c).call call log = (.ok (), call :: log) := by
  have hfault : (g.guest c).fault log call = none := if_pos h
  rw [CapsGuest.call, hfault]
  rfl

theorem guest_call_err
    (h : ¬ (call.perform (g.order capsAll) (credAfter (g.order capsAll) c log)).2) :
    (g.guest c).call call log = (.err (.caps (g.refusal call)), call :: log) := by
  have hfault : (g.guest c).fault log call = some (g.refusal call) := if_neg h
  rw [CapsGuest.call, hfault]
  rfl

/-- A loop of calls gets through where the kernel takes them one after the other. -/
theorem forM_guest (calls log : List CapsCall) :
    match performAll (g.order capsAll) calls (credAfter (g.order capsAll) c log) with
    | some c' => calls.forM (g.guest c).call log = (.ok (), calls.reverse ++ log) ∧
        credAfter (g.order capsAll) c (calls.reverse ++ log) = c'
    | none => ∀ u, (calls.forM (g.guest c).call log).1 ≠ .ok u := by
  induction calls generalizing log with
  | nil => exact ⟨rfl, rfl⟩
  | cons call calls ih =>
    have hcons : (call :: calls).forM (g.guest c).call =
        (g.guest c).call call >>= fun _ => calls.forM (g.guest c).call := rfl
    rw [hcons, performAll]
    by_cases h : (call.perform (g.order capsAll) (credAfter (g.order capsAll) c log)).2
    · rw [if_pos h, Act.bind_ok (guest_call_ok h), List.reverse_cons, List.append_assoc,
        List.singleton_append]
      exact ih (call :: log)
    · rw [if_neg h, Act.bind_err (guest_call_err h)]
      intro u hu
      cases hu

theorem dropPriviledges_cred (g : CapsCrate) (r : IdRules) (c : ProcessCred)
    (caps : LinuxCapabilities) : SysCall.cred g r c (.dropPriviledges caps) =
      (performAll (g.order capsAll) (requiredCalls (g.guest c) caps.message) c).map fun c' =>
        ((ambientCall caps.message).perform (g.order capsAll) c').1 := by
  have hloop := forM_guest (g := g) (c := c) (requiredCalls (g.guest c) caps.message) []
  rw [SysCall.cred, dropPriviledges_eq]
  cases hall : performAll (g.order capsAll) (requiredCalls (g.guest c) caps.message) c with
  | none =>
    rw [credAfter, List.foldr_nil, hall] at hloop
    rcases hrun : (requiredCalls (g.guest c) caps.message).forM (g.guest c).call [] with ⟨o, log⟩
    rw [hrun] at hloop
    cases o with
    | ok u => exact absurd rfl (hloop u)
    | err e =>
      rw [Act.bind_err hrun]
      rfl
    | panic =>
      rw [Act.bind_panic hrun]
      rfl
  | some c' =>
    have hstart : credAfter (g.order capsAll) c [] = c := rfl
    rw [hstart, hall] at hloop
    obtain ⟨hrun, hafter⟩ := hloop
    rw [Act.bind_ok hrun, CapsGuest.discard_call, Option.map_some, ← hafter]
    rfl

/-- Root drops whatever it likes from the bounding set. -/
theorem performAll_drop (h : .setpcap ∈ c.effective) (xs : List Capability) :
    performAll order (xs.map (.drop .bounding)) c =
      some { c with bounding := c.bounding \ xs.toFinset } := by
  induction xs generalizing c with
  | nil =>
    rw [List.toFinset_nil, Finset.sdiff_empty]
    rfl
  | cons x xs ih =>
    have hdrop : CapsCall.perform order c (.drop .bounding x) =
        ({ c with bounding := c.bounding.erase x }, true) := by
      rw [CapsCall.perform, Cred.dropBounding_eq h]
      rfl
    have hset : c.bounding.erase x \ xs.toFinset = c.bounding \ (x :: xs).toFinset := by
      rw [List.toFinset_cons, Finset.sdiff_insert, Finset.erase_sdiff_comm]
    rw [List.map_cons, performAll, hdrop, if_pos rfl, ← hset]
    exact ih h

/-- Only the ambient set changes, and it stays within what may be raised. -/
theorem setAmbient_frame (xs : List Capability) (h : c.ambient ⊆ c.permitted ∩ c.inheritable) :
    ∃ a ⊆ c.permitted ∩ c.inheritable, (setAmbient s xs c).1 = { c with ambient := a } := by
  induction xs generalizing c with
  | nil => exact ⟨c.ambient, h, rfl⟩
  | cons x xs ih =>
    rw [setAmbient, Cred.raiseAmbient]
    split
    · by_cases hx : x ∈ c.permitted ∩ c.inheritable
      · rw [if_pos hx]
        exact ih (c := { c with ambient := insert x c.ambient }) (Finset.insert_subset hx h)
      · rw [if_neg hx]
        exact ⟨c.ambient, h, rfl⟩
    · exact ih (c := c.lowerAmbient x) ((Finset.erase_subset _ _).trans h)

/-- Where all of a set may be raised, the walk leaves it for what it has passed. -/
theorem setAmbient_walk (xs : List Capability) (hs : s ⊆ c.permitted ∩ c.inheritable) :
    ∀ y, y ∈ (setAmbient s xs c).1.ambient ↔ if y ∈ xs then y ∈ s else y ∈ c.ambient := by
  induction xs generalizing c with
  | nil => exact fun y => Iff.rfl
  | cons x xs ih =>
    intro y
    rw [setAmbient, Cred.raiseAmbient]
    by_cases hx : x ∈ s
    · rw [if_pos hx, if_pos (hs hx)]
      have hstep := ih (c := { c with ambient := insert x c.ambient }) hs y
      rw [hstep]
      by_cases hy : y ∈ xs
      · rw [if_pos hy, if_pos (List.mem_cons_of_mem _ hy)]
      · by_cases he : y = x
        · rw [if_neg hy, he, if_pos List.mem_cons_self]
          exact iff_of_true (Finset.mem_insert_self _ _) hx
        · rw [if_neg hy, if_neg (List.not_mem_cons_of_ne_of_not_mem he hy)]
          exact Finset.mem_insert.trans (or_iff_right he)
    · rw [if_neg hx, ih (c := c.lowerAmbient x) hs y]
      by_cases hy : y ∈ xs
      · rw [if_pos hy, if_pos (List.mem_cons_of_mem _ hy)]
      · by_cases he : y = x
        · rw [if_neg hy, he, if_pos List.mem_cons_self]
          exact iff_of_false (Finset.notMem_erase _ _) hx
        · rw [if_neg hy, if_neg (List.not_mem_cons_of_ne_of_not_mem he hy)]
          exact Finset.mem_erase.trans (and_iff_right he)

/-- A set is taken in its turn where the kernel takes the three sets that it makes. -/
theorem performAll_set (cset : CapSet) {e p i : Finset Capability}
    (h : CapsCall.perform order c (.set cset s) = taken c (c.capset capPowers e p i)) :
    performAll order (.set cset s :: calls) c = some c' ↔ c.Settable capPowers e p i ∧
      performAll order calls { c with
        effective := e, permitted := p, inheritable := i
        ambient := c.ambient ∩ (p ∩ i) } = some c' := by
  rw [performAll, h, Cred.capset]
  by_cases hset : c.Settable capPowers e p i
  · rw [if_pos hset, and_iff_right hset]
    rfl
  · rw [if_neg hset]
    exact iff_of_false (by simp [taken]) fun h => hset h.1

/-- A process with all capabilities, whoever its user is. -/
structure FullCaps (c : ProcessCred) : Prop where
  effective : c.effective = capsAll
  permitted : c.permitted = capsAll
  ambient : c.ambient ⊆ c.inheritable

/-- The sets are taken exactly where they are consistent. -/
theorem performAll_required (g : CapsCrate) (order : List Capability) (h : FullCaps c)
    (caps : LinuxCapabilities) :
    performAll order (requiredCalls (g.guest c) caps.message) c = some c' ↔
      caps.Consistent c ∧ c' = { c with
        effective := caps.sets .effective, permitted := caps.sets .permitted
        inheritable := caps.sets .inheritable
        bounding := c.bounding ∩ caps.sets .bounding
        ambient := c.ambient ∩ (caps.sets .permitted ∩ caps.sets .inheritable) } := by
  have hpcap : .setpcap ∈ c.effective := h.effective ▸ mem_capsAll _
  have hdrops : c.bounding \ (g.order (capsAll \ caps.sets .bounding)).toFinset =
      c.bounding ∩ caps.sets .bounding := by
    ext x
    simp only [Finset.mem_sdiff, List.mem_toFinset, g.mem_order, Finset.mem_inter, not_and, not_not]
    exact and_congr_right fun _ => ⟨fun hx => hx (mem_capsAll x), fun hx _ => hx⟩
  have hcalls : requiredCalls (g.guest c) caps.message =
      (g.order (capsAll \ caps.sets .bounding)).map (.drop .bounding) ++
        [.set .effective (caps.sets .effective), .set .permitted (caps.sets .permitted),
          .set .inheritable (caps.sets .inheritable)] := rfl
  rw [hcalls, performAll_append, performAll_drop hpcap, hdrops, Option.bind_some,
    performAll_set .effective rfl, performAll_set .permitted rfl, performAll_set .inheritable rfl,
    performAll]
  have hambient : c.ambient ∩ (c.permitted ∩ c.inheritable) ∩
      (caps.sets .permitted ∩ c.inheritable) ∩ (caps.sets .permitted ∩ caps.sets .inheritable) =
        c.ambient ∩ (caps.sets .permitted ∩ caps.sets .inheritable) := by
    ext x
    simp only [Finset.mem_inter, h.permitted]
    constructor
    · rintro ⟨⟨⟨ha, -⟩, -⟩, hpi⟩
      exact ⟨ha, hpi⟩
    · rintro ⟨ha, hpi⟩
      exact ⟨⟨⟨ha, mem_capsAll x, h.ambient ha⟩, hpi.1, h.ambient ha⟩, hpi⟩
  rw [hambient, Option.some.injEq, eq_comm (b := c')]
  constructor
  · rintro ⟨-, ⟨-, heff, -, -⟩, ⟨-, -, hbound, hcap⟩, he⟩
    exact ⟨⟨heff, hbound, hcap⟩, he⟩
  · rintro ⟨⟨heff, hbound, hcap⟩, he⟩
    refine ⟨⟨subset_rfl, ?_, Finset.subset_union_left, .inl hpcap⟩,
      ⟨?_, heff, Finset.subset_union_left, .inr Finset.subset_union_left⟩,
      ⟨subset_rfl, heff, hbound, hcap⟩, he⟩
    · rw [h.permitted]
      exact subset_capsAll _
    · rw [h.permitted]
      exact subset_capsAll _

theorem credRun_append (is js : List Instr) :
    credRun g r (is ++ js) c = (credRun g r is c).bind (credRun g r js) :=
  List.foldlM_append

theorem credRun_cons (i : Instr) (is : List Instr) :
    credRun g r (i :: is) c = (i.cred g r c).bind (credRun g r is) := rfl

theorem credRun_neutral {is : List Instr} (h : ∀ i ∈ is, ∀ c, Instr.cred g r c i = some c) :
    credRun g r is c = some c := by
  induction is with
  | nil => rfl
  | cons i is ih =>
    rw [credRun_cons, h i List.mem_cons_self c, Option.bind_some]
    exact ih fun j hj => h j (List.mem_cons_of_mem _ hj)

/-- What sets no credentials has only to succeed. -/
theorem setupRun_eq_some {g : SetupGuest} {is : List Instr} :
    setupRun g is c = some c' ↔ g.Completes is ∧ credRun g.crate g.ids is c = some c' := by
  induction is generalizing c with
  | nil => exact ⟨fun h => ⟨List.forall_mem_nil _, h⟩, And.right⟩
  | cons i is ih =>
    have hcons : setupRun g (i :: is) c = (setupStep g c i).bind (setupRun g is) := rfl
    rw [hcons, credRun_cons, setupStep, SetupGuest.Completes, List.forall_mem_cons]
    by_cases h : i.credential = true ∨ g.completes i = true
    · rw [if_pos h, and_iff_right h, Option.bind_eq_some_iff, Option.bind_eq_some_iff]
      constructor
      · intro ⟨d, hd, hrest⟩
        obtain ⟨hall, hrest⟩ := ih.1 hrest
        exact ⟨hall, d, hd, hrest⟩
      · intro ⟨hall, d, hd, hrest⟩
        exact ⟨d, hd, ih.2 ⟨hall, hrest⟩⟩
    · rw [if_neg h]
      exact iff_of_false nofun fun hall => h hall.1.1

theorem credRun_onlyIf {p : Prop} [Decidable p] {x : Instr}
    (hx : p → Instr.cred g r c x = some c') (hc : ¬ p → c' = c) :
    credRun g r (onlyIf p [x]) c = some c' := by
  rw [onlyIf]
  split
  · rename_i hp
    rw [credRun_cons, hx hp, Option.bind_some]
    rfl
  · rename_i hp
    rw [hc hp]
    rfl

/-- Root that has all its capabilities has them again when it has set its user, but for those that
were ambient. -/
def ProcessCred.withIds (c : ProcessCred) (uid gid : Nat) : ProcessCred :=
  { c with
    uid := chosen uid c.uid, gid := chosen gid c.gid, keepCaps := false
    ambient := if uid = 0 ∨ uid = unchanged then c.ambient else ∅ }

theorem credRun_setid (h : FullCaps c) (hu : c.uid = 0) {uid gid : Nat}
    (huid : uid = unchanged ∨ r.uidMapped uid = true)
    (hgid : gid = unchanged ∨ r.gidMapped gid = true) :
    credRun g r (setid uid gid) c = some (ProcessCred.withIds c uid gid) := by
  have hcan : .setgid ∈ c.effective := h.effective ▸ mem_capsAll _
  have hcan' : .setuid ∈ c.effective := h.effective ▸ mem_capsAll _
  have hids : credRun g r [.call (.setKeepCapabilities true), .call (.setresgid gid),
      .call (.setresuid uid)] c =
        some (if uid = unchanged then { c with keepCaps := true, gid := chosen gid c.gid }
          else Cred.fixSetuid { c with keepCaps := true, gid := chosen gid c.gid } uid) := by
    have hcalls : credRun g r [.call (.setKeepCapabilities true), .call (.setresgid gid),
        .call (.setresuid uid)] c =
          ((Cred.setresgid capPowers r { c with keepCaps := true } gid).bind fun c =>
            (c.setresuid capPowers r uid).bind some) := rfl
    rw [hcalls, Cred.setresgid_eq hcan, if_pos hgid, Option.bind_some, Cred.setresuid_eq hcan',
      if_pos huid, Option.bind_some]
  have hset (d : ProcessCred) (hd : d.permitted = capsAll) :
      Cred.Settable capPowers d capsAll d.permitted d.inheritable :=
    ⟨subset_rfl, hd ▸ subset_rfl, Finset.subset_union_left, .inr Finset.subset_union_left⟩
  have hreset (d : ProcessCred) (hd : d.permitted = capsAll) :
      credRun g r [.call .resetEffective] d = some { d with
        effective := capsAll, ambient := d.ambient ∩ (d.permitted ∩ d.inheritable) } := by
    have hone : credRun g r [.call .resetEffective] d =
        (d.capset capPowers capsAll d.permitted d.inheritable).bind some := rfl
    rw [hone, Cred.capset, if_pos (hset d hd), Option.bind_some]
  rw [setid, List.flatten_cons, credRun_append, hids, Option.bind_some, List.flatten_cons,
    List.flatten_cons, List.flatten_nil, List.append_nil, credRun_append, ProcessCred.withIds]
  have hall : c.permitted ∩ c.inheritable = c.inheritable := by
    rw [h.permitted, Finset.inter_eq_right]
    exact subset_capsAll _
  by_cases hun : uid = unchanged
  · have hne : uid ≠ 0 := by
      rw [hun]
      decide
    have hchosen : chosen uid c.uid = c.uid := if_pos hun
    rw [if_pos hun, onlyIf, if_pos hne,
      hreset { c with keepCaps := true, gid := chosen gid c.gid } h.permitted,
      if_pos (.inr hun), Option.bind_some, hchosen]
    dsimp only
    rw [hall, Finset.inter_eq_left.2 h.ambient, ← h.effective]
    rfl
  · have hchosen : chosen uid c.uid = uid := if_neg hun
    rw [if_neg hun, Cred.fixSetuid, hchosen]
    by_cases huid0 : uid = 0
    · rw [if_neg fun hn => hn.2 huid0, if_neg fun hn => hn.1 hu, onlyIf, if_neg (not_not.2 huid0),
        if_pos (.inl huid0)]
      rfl
    · have hambient : (if uid = 0 ∨ uid = unchanged then c.ambient else ∅) = ∅ :=
        if_neg (not_or.2 ⟨huid0, hun⟩)
      rw [if_pos ⟨hu, huid0⟩, onlyIf, if_pos huid0, hambient, if_pos rfl,
        hreset { c with
          uid := uid, gid := chosen gid c.gid, keepCaps := true, effective := ∅, ambient := ∅ }
          h.permitted, Option.bind_some]
      dsimp only
      rw [Finset.empty_inter, ← h.effective]
      rfl

/-- An id without a mapping ends the setup. -/
theorem credRun_setid_none (h : FullCaps c) {uid gid : Nat}
    (hno : ¬ ((uid = unchanged ∨ r.uidMapped uid = true) ∧
      (gid = unchanged ∨ r.gidMapped gid = true))) :
    credRun g r (setid uid gid) c = none := by
  have hcan : .setgid ∈ c.effective := h.effective ▸ mem_capsAll _
  have hcan' : .setuid ∈ c.effective := h.effective ▸ mem_capsAll _
  have hids : credRun g r [.call (.setKeepCapabilities true), .call (.setresgid gid),
      .call (.setresuid uid)] c = none := by
    have hcalls : credRun g r [.call (.setKeepCapabilities true), .call (.setresgid gid),
        .call (.setresuid uid)] c =
          ((Cred.setresgid capPowers r { c with keepCaps := true } gid).bind fun c =>
            (c.setresuid capPowers r uid).bind some) := rfl
    rw [hcalls, Cred.setresgid_eq hcan]
    split
    · rename_i hgid
      rw [Option.bind_some, Cred.setresuid_eq hcan', if_neg fun huid => hno ⟨huid, hgid⟩]
      rfl
    · rfl
  rw [setid, List.flatten_cons, credRun_append, hids]
  rfl

theorem setupStdio_neutral (p : Process) (master slave : RawFd) :
    credRun g r (setupStdio p master slave) c = some c := by
  apply credRun_neutral
  rw [setupStdio, List.forall_mem_append]
  constructor
  · split
    · simp only [List.flatten_cons, List.flatten_nil, List.append_nil, List.forall_mem_append,
        List.forall_mem_cons, List.not_mem_nil, IsEmpty.forall_iff, implies_true, and_true,
        forall_mem_onlyIf]
      exact ⟨⟨fun _ => rfl, fun _ => rfl, fun _ => rfl, fun _ => rfl, fun _ => rfl, fun _ => rfl,
        fun _ => rfl, fun _ => rfl, fun _ => rfl, fun _ => rfl⟩, fun _ _ => rfl, fun _ => rfl⟩
    · simp only [List.flatten_cons, List.flatten_nil, List.append_nil, List.forall_mem_append,
        List.forall_mem_cons, List.not_mem_nil, IsEmpty.forall_iff, implies_true, and_true,
        forall_mem_onlyIf]
      exact ⟨⟨fun _ => rfl, fun _ => rfl, fun _ => rfl⟩, fun _ _ => rfl, fun _ _ => rfl,
        fun _ _ => rfl⟩
  · simp only [List.forall_mem_cons, List.not_mem_nil, IsEmpty.forall_iff, implies_true, and_true]
    exact ⟨fun _ => rfl, fun _ => rfl, fun _ => rfl⟩

/-- The credentials when the capabilities are dropped. -/
def ProcessCred.asUser (c : ProcessCred) (user : User) (nnp : Bool) : ProcessCred :=
  { ProcessCred.withIds c user.uid user.gid with
    groups := if user.additionalGids = [] then c.groups else user.additionalGids
    noNewPrivs := c.noNewPrivs || nnp }

/-- The user is taken, or the setup ends. -/
theorem credRun_setUser (h : FullCaps c) (hroot : c.uid = 0) (user : User) :
    (user.Taken r → credRun g r (setUser (some user)) c =
      some { ProcessCred.withIds c user.uid user.gid with
        groups := if user.additionalGids = [] then c.groups else user.additionalGids }) ∧
      (¬ user.Taken r → credRun g r (setUser (some user)) c = none) := by
  have hcan : .setgid ∈ (ProcessCred.withIds c user.uid user.gid).effective := by
    have heff : (ProcessCred.withIds c user.uid user.gid).effective = c.effective := rfl
    rw [heff, h.effective]
    exact mem_capsAll _
  rw [setUser, credRun_append]
  constructor
  · intro ht
    rw [credRun_setid h hroot ht.uid ht.gid, Option.bind_some]
    apply credRun_onlyIf
    · intro hne
      rw [if_neg hne]
      exact if_pos ⟨hcan, ht.groups hne⟩
    · intro hne
      rw [if_pos (not_not.1 hne)]
      rfl
  · intro hno
    by_cases hids : (user.uid = unchanged ∨ r.uidMapped user.uid = true) ∧
        (user.gid = unchanged ∨ r.gidMapped user.gid = true)
    · have hgroups : ¬ (user.additionalGids ≠ [] → r.Groups user.additionalGids) :=
        fun hg => hno ⟨hids.1, hids.2, hg⟩
      rw [Classical.not_imp] at hgroups
      have hrefused : Cred.setgroups capPowers r (ProcessCred.withIds c user.uid user.gid)
          user.additionalGids = none := if_neg fun hg => hgroups.2 hg.2
      rw [credRun_setid h hroot hids.1 hids.2, Option.bind_some, onlyIf, if_pos hgroups.1,
        credRun_cons]
      change (Cred.setgroups capPowers r _ user.additionalGids).bind _ = none
      rw [hrefused]
      rfl
    · rw [credRun_setid_none h hids]
      rfl

theorem startSetup_cred {a : StartArgs} {user : User} (h : FullCaps c) (hroot : c.uid = 0)
    (hu : a.p.oci.user = some user) (hcaps : a.p.oci.capabilities = some caps) :
    (user.Taken r → credRun g r (startSetup a) c =
      SysCall.cred g r (ProcessCred.asUser c user a.p.oci.noNewPrivileges)
        (.dropPriviledges caps)) ∧
      (¬ user.Taken r → credRun g r (startSetup a) c = none) := by
  have hsetup : startSetup a = setupStdio a.p a.master a.slave ++
      (onlyIf (.newNs ∈ a.toNew) [.call .finishRootfs] ++
        (onlyIf (a.p.oci.cwd ≠ "") [.call (.chdir a.p.oci.cwd)] ++
          (setUser (some user) ++
            (onlyIf a.p.oci.noNewPrivileges [.call .setNoNewPrivileges] ++
              ([.call (.dropPriviledges caps)] ++
                onlyIf a.p.init [writeSync .pfd .poststart 0]))))) := by
    simp [startSetup, hu, hcaps, setCapabilities]
  have hnnp (d : ProcessCred) :
      credRun g r (onlyIf a.p.oci.noNewPrivileges [.call .setNoNewPrivileges]) d =
        some { d with noNewPrivs := d.noNewPrivs || a.p.oci.noNewPrivileges } := by
    apply credRun_onlyIf
    · intro hp
      rw [hp, Bool.or_true]
      rfl
    · intro hp
      rw [Bool.eq_false_of_not_eq_true hp, Bool.or_false]
  obtain ⟨htaken, hrefused⟩ := credRun_setUser (g := g) (r := r) h hroot user
  rw [hsetup, credRun_append, setupStdio_neutral, Option.bind_some, credRun_append,
    credRun_onlyIf (fun _ => rfl) fun _ => rfl, Option.bind_some, credRun_append,
    credRun_onlyIf (fun _ => rfl) fun _ => rfl, Option.bind_some, credRun_append]
  constructor
  · intro ht
    rw [htaken ht, Option.bind_some, credRun_append, hnnp, Option.bind_some, credRun_append]
    have hlast (d : ProcessCred) : credRun g r (onlyIf a.p.init [writeSync .pfd .poststart 0]) d =
        some d := credRun_onlyIf (fun _ => rfl) fun _ => rfl
    have hdrop (d : ProcessCred) : credRun g r [.call (.dropPriviledges caps)] d =
        (SysCall.cred g r d (.dropPriviledges caps)).bind some := rfl
    rw [hdrop, Option.bind_assoc]
    simp only [Option.bind_some, hlast]
    exact Option.bind_fun_some _
  · intro hno
    rw [hrefused hno]
    rfl

/-- The ambient set at the end is within what is permitted and inheritable, and the one that was
asked for where that is. -/
theorem perform_ambient (g : CapsCrate) (h : c.ambient ⊆ c.permitted ∩ c.inheritable) :
    ∃ a ⊆ c.permitted ∩ c.inheritable,
      (CapsCall.perform (g.order capsAll) c (.set .ambient s)).1 = { c with ambient := a } ∧
        (s ⊆ c.permitted ∩ c.inheritable → a = s) := by
  obtain ⟨a, hsub, ha⟩ := setAmbient_frame (g.order capsAll) h
  refine ⟨a, hsub, ha, fun hs => ?_⟩
  ext y
  have hwalk := setAmbient_walk (g.order capsAll) hs y
  rw [ha, if_pos ((g.mem_order _ _).2 (mem_capsAll y))] at hwalk
  exact hwalk

end

/-- Whatever the order in which sets are walked, the setup of a process by root gets through exactly
where all else succeeds, the ids and groups can be taken and the capabilities that are asked for are
consistent, and then the process has these, the ids and groups of its user, and no right to more. -/
theorem startSetup_credentials (g : SetupGuest) (a : StartArgs) {user : User}
    {caps : LinuxCapabilities} (hu : a.p.oci.user = some user)
    (hcaps : a.p.oci.capabilities = some caps) {c : ProcessCred} (h : FullRoot c) :
    ((∃ c', setupRun g (startSetup a) c = some c') ↔
      g.Completes (startSetup a) ∧ user.Taken g.ids ∧ caps.Consistent c) ∧
      ∀ c', setupRun g (startSetup a) c = some c' →
        caps.Granted user a.p.oci.noNewPrivileges c c' := by
  have hambient : (if user.uid = 0 ∨ user.uid = unchanged then c.ambient else ∅) ⊆
      c.inheritable := by
    split
    · exact h.ambient
    · exact Finset.empty_subset _
  have hfull : FullCaps (ProcessCred.asUser c user a.p.oci.noNewPrivileges) :=
    ⟨h.effective, h.permitted, hambient⟩
  obtain ⟨htaken, hrefused⟩ := startSetup_cred (g := g.crate) (r := g.ids)
    ⟨h.effective, h.permitted, h.ambient⟩ h.uid hu hcaps
  have hall (c₁ : ProcessCred) : _ = some c₁ ↔ _ :=
    performAll_required g.crate (g.crate.order capsAll) hfull caps
  have hcons : caps.Consistent (ProcessCred.asUser c user a.p.oci.noNewPrivileges) ↔
      caps.Consistent c := ⟨fun h => ⟨h.1, h.2, h.3⟩, fun h => ⟨h.1, h.2, h.3⟩⟩
  simp only [setupRun_eq_some]
  by_cases ht : user.Taken g.ids
  · rw [htaken ht, dropPriviledges_cred]
    constructor
    · rw [← hcons]
      constructor
      · intro ⟨c', hcomplete, hc'⟩
        obtain ⟨c₁, hc₁, -⟩ := Option.map_eq_some_iff.1 hc'
        exact ⟨hcomplete, ht, ((hall c₁).1 hc₁).1⟩
      · intro ⟨hcomplete, _, hc⟩
        exact ⟨_, hcomplete, Option.map_eq_some_iff.2 ⟨_, (hall _).2 ⟨hc, rfl⟩, rfl⟩⟩
    · intro c' ⟨_, hc'⟩
      obtain ⟨c₁, hc₁, rfl⟩ := Option.map_eq_some_iff.1 hc'
      obtain ⟨hconsistent, rfl⟩ := (hall c₁).1 hc₁
      have hcall : ambientCall caps.message = .set .ambient (caps.sets .ambient) := rfl
      obtain ⟨A, hA, hperform, hevery⟩ := perform_ambient (s := caps.sets .ambient) (c := {
        ProcessCred.asUser c user a.p.oci.noNewPrivileges with
          effective := caps.sets .effective, permitted := caps.sets .permitted
          inheritable := caps.sets .inheritable, bounding := c.bounding ∩ caps.sets .bounding
          ambient := (if user.uid = 0 ∨ user.uid = unchanged then c.ambient else ∅) ∩
            (caps.sets .permitted ∩ caps.sets .inheritable) }) g.crate Finset.inter_subset_right
      rw [hcall]
      simp only [ProcessCred.asUser, ProcessCred.withIds] at hperform ⊢
      rw [hperform]
      constructor
      case root =>
        intro huid
        exact Cred.Sound.granted_root ⟨hconsistent.effective, hA⟩ huid
      case others =>
        intro huid
        exact if_neg huid
      case ambient => exact hA
      case every_ambient => exact hevery
      case named =>
        intro cset hcontrol hadmin
        exact toCapshashset_named.2 ⟨hcontrol, hadmin⟩
      all_goals rfl
  · rw [hrefused ht]
    exact ⟨iff_of_false (fun ⟨_, _, hc⟩ => nomatch hc) fun hc => ht hc.2.1,
      fun c' hc => nomatch hc.2⟩

def rootCred : ProcessCred where
  uid := 0
  gid := 0
  groups := 0
  keepCaps := false
  noNewPrivs := false
  effective := capsAll
  permitted := capsAll
  inheritable := ∅
  bounding := capsAll
  ambient := ∅

def plainCrate : CapsCrate where
  order := CapsGuest.willing.order
  nodup_order := CapsGuest.willing.nodup_order
  mem_order := CapsGuest.willing.mem_order
  refusal _ := "EPERM"

/-- A guest without user namespaces that refuses nothing. -/
def plainSetup : SetupGuest where
  crate := plainCrate
  ids := ⟨fun id => id < unchanged, fun id => id < unchanged, true⟩
  completes _ := true

def killCaps : LinuxCapabilities := ⟨["CAP_KILL"], ["CAP_KILL"], ["CAP_KILL"], ["CAP_KILL"], []⟩

def killStart : StartArgs :=
  { podStart with p := { podStart.p with oci := { podProcess with
    user := some ⟨1000, 1000, []⟩, capabilities := some killCaps } } }

/-- A user with one capability executes its program without it, where it is not made ambient. -/
theorem startSetup_credentials_kill : ∃ c',
    setupRun plainSetup (startSetup killStart) rootCred = some c' ∧ c'.effective = {.kill} ∧
      c'.exec.effective = ∅ := by
  obtain ⟨hiff, hall⟩ := startSetup_credentials plainSetup killStart rfl rfl (c := rootCred)
    ⟨rfl, rfl, rfl, subset_rfl⟩
  have hsets (cset : CapSet) (h : cset ≠ .ambient) : killCaps.sets cset = {.kill} := by
    cases cset with
    | ambient => exact absurd rfl h
    | _ => rfl
  have hnone : killCaps.sets .ambient = ∅ := rfl
  have htaken : User.Taken ⟨1000, 1000, []⟩ plainSetup.ids :=
    ⟨.inr (by decide), .inr (by decide), fun hne => absurd rfl hne⟩
  have hconsistent : killCaps.Consistent rootCred :=
    ⟨subset_rfl, Finset.subset_union_right.trans' (by decide), .inr Finset.subset_union_right⟩
  obtain ⟨c', hc'⟩ := hiff.2 ⟨fun _ _ => .inr rfl, htaken, hconsistent⟩
  have hgrant := hall c' hc'
  refine ⟨c', hc', hgrant.effective.trans (hsets _ (by decide)), ?_⟩
  have huser : c'.uid ≠ 0 := by
    rw [hgrant.uid]
    decide
  rw [hgrant.others huser, hgrant.every_ambient (hnone ▸ Finset.empty_subset _), hnone]

end KataAgent
