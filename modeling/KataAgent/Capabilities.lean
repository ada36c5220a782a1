import Mathlib.Data.Finset.Basic
import KataAgent.CallLog
import KataAgent.GrpcSpec

namespace KataAgent
set_option autoImplicit true
open Fallible

/-- The capabilities that the crate knows. Those that a newer kernel adds stay in the bounding set of a
process and in none of the others. -/
inductive Capability where
  | chown
  | dacOverride
  | dacReadSearch
  | fowner
  | fsetid
  | kill
  | setgid
  | setuid
  | setpcap
  | linuxImmutable
  | netBindService
  | netBroadcast
  | netAdmin
  | netRaw
  | ipcLock
  | ipcOwner
  | sysModule
  | sysRawio
  | sysChroot
  | sysPtrace
  | sysPacct
  | sysAdmin
  | sysBoot
  | sysNice
  | sysResource
  | sysTime
  | sysTtyConfig
  | mknod
  | lease
  | auditWrite
  | auditControl
  | setfcap
  | macOverride
  | macAdmin
  | syslog
  | wakeAlarm
  | blockSuspend
  | auditRead
  deriving DecidableEq

namespace Capability

def toString : Capability → String
  | .chown => "CAP_CHOWN"
  | .dacOverride => "CAP_DAC_OVERRIDE"
  | .dacReadSearch => "CAP_DAC_READ_SEARCH"
  | .fowner => "CAP_FOWNER"
  | .fsetid => "CAP_FSETID"
  | .kill => "CAP_KILL"
  | .setgid => "CAP_SETGID"
  | .setuid => "CAP_SETUID"
  | .setpcap => "CAP_SETPCAP"
  | .linuxImmutable => "CAP_LINUX_IMMUTABLE"
  | .netBindService => "CAP_NET_BIND_SERVICE"
  | .netBroadcast => "CAP_NET_BROADCAST"
  | .netAdmin => "CAP_NET_ADMIN"
  | .netRaw => "CAP_NET_RAW"
  | .ipcLock => "CAP_IPC_LOCK"
  | .ipcOwner => "CAP_IPC_OWNER"
  | .sysModule => "CAP_SYS_MODULE"
  | .sysRawio => "CAP_SYS_RAWIO"
  | .sysChroot => "CAP_SYS_CHROOT"
  | .sysPtrace => "CAP_SYS_PTRACE"
  | .sysPacct => "CAP_SYS_PACCT"
  | .sysAdmin => "CAP_SYS_ADMIN"
  | .sysBoot => "CAP_SYS_BOOT"
  | .sysNice => "CAP_SYS_NICE"
  | .sysResource => "CAP_SYS_RESOURCE"
  | .sysTime => "CAP_SYS_TIME"
  | .sysTtyConfig => "CAP_SYS_TTY_CONFIG"
  | .mknod => "CAP_MKNOD"
  | .lease => "CAP_LEASE"
  | .auditWrite => "CAP_AUDIT_WRITE"
  | .auditControl => "CAP_AUDIT_CONTROL"
  | .setfcap => "CAP_SETFCAP"
  | .macOverride => "CAP_MAC_OVERRIDE"
  | .macAdmin => "CAP_MAC_ADMIN"
  | .syslog => "CAP_SYSLOG"
  | .wakeAlarm => "CAP_WAKE_ALARM"
  | .blockSuspend => "CAP_BLOCK_SUSPEND"
  | .auditRead => "CAP_AUDIT_READ"

def all : List Capability :=
  [ .chown, .dacOverride, .dacReadSearch, .fowner, .fsetid, .kill, .setgid, .setuid, .setpcap,
    .linuxImmutable, .netBindService, .netBroadcast, .netAdmin, .netRaw, .ipcLock, .ipcOwner,
    .sysModule, .sysRawio, .sysChroot, .sysPtrace, .sysPacct, .sysAdmin, .sysBoot, .sysNice,
    .sysResource, .sysTime, .sysTtyConfig, .mknod, .lease, .auditWrite, .auditControl, .setfcap,
    .macOverride, .macAdmin, .syslog, .wakeAlarm, .blockSuspend, .auditRead ]

theorem mem_all (c : Capability) : c ∈ all := by
  cases c <;> decide

end Capability

/-- The rows of `CAPSMAP`. -/
def capsmap : List (String × Capability) :=
  [ ("CAP_CHOWN", .chown),
    ("CAP_DAC_OVERRIDE", .dacOverride),
    ("CAP_DAC_READ_SEARCH", .dacReadSearch),
    ("CAP_FOWNER", .fowner),
    ("CAP_FSETID", .fsetid),
    ("CAP_KILL", .kill),
    ("CAP_SETGID", .setgid),
    ("CAP_SETUID", .setuid),
    ("CAP_SETPCAP", .setpcap),
    ("CAP_LINUX_IMMUTABLE", .linuxImmutable),
    ("CAP_NET_BIND_SERVICE", .netBindService),
    ("CAP_NET_BROADCAST", .netBroadcast),
    ("CAP_NET_ADMIN", .netAdmin),
    ("CAP_NET_RAW", .netRaw),
    ("CAP_IPC_LOCK", .ipcLock),
    ("CAP_IPC_OWNER", .ipcOwner),
    ("CAP_SYS_MODULE", .sysModule),
    ("CAP_SYS_RAWIO", .sysRawio),
    ("CAP_SYS_CHROOT", .sysChroot),
    ("CAP_SYS_PTRACE", .sysPtrace),
    ("CAP_SYS_PACCT", .sysPacct),
    ("CAP_SYS_ADMIN", .sysAdmin),
    ("CAP_SYS_BOOT", .sysBoot),
    ("CAP_SYS_NICE", .sysNice),
    ("CAP_SYS_RESOURCE", .sysResource),
    ("CAP_SYS_TIME", .sysTime),
    ("CAP_SYS_TTY_CONFIG", .sysTtyConfig),
    ("CAP_MKNOD", .mknod),
    ("CAP_LEASE", .lease),
    ("CAP_AUDIT_WRITE", .auditWrite),
    ("CAP_AUDIT_CONTROL", .auditWrite),
    ("CAP_SETFCAP", .setfcap),
    ("CAP_MAC_OVERRIDE", .macOverride),
    ("CAP_SYSLOG", .syslog),
    ("CAP_WAKE_ALARM", .wakeAlarm),
    ("CAP_BLOCK_SUSPEND", .blockSuspend),
    ("CAP_AUDIT_READ", .auditRead) ]

/-- The names without a row are passed by. -/
def toCapshashset (caps : List String) : Finset Capability :=
  caps.foldl
    (fun r cap =>
      match capsmap.lookup cap with
      | none => r
      | some c => insert c r) ∅

theorem capsmap_toString {c : Capability} (hc : c ≠ .auditControl) (hm : c ≠ .macAdmin) :
    capsmap.lookup c.toString = some c := by
  cases c with
  | auditControl => exact absurd rfl hc
  | macAdmin => exact absurd rfl hm
  | _ => rfl

theorem of_lookup_capsmap (h : capsmap.lookup name = some c) :
    (name = c.toString ∨ name = "CAP_AUDIT_CONTROL") ∧ c ≠ .auditControl ∧ c ≠ .macAdmin := by
  have hrows : ∀ row ∈ capsmap, (row.1 = row.2.toString ∨ row.1 = "CAP_AUDIT_CONTROL") ∧
      row.2 ≠ .auditControl ∧ row.2 ≠ .macAdmin := by decide
  exact hrows (name, c) (Table.mem_of_lookup h)

theorem mem_toCapshashset {caps : List String} {c : Capability} :
    c ∈ toCapshashset caps ↔ ∃ name ∈ caps, capsmap.lookup name = some c := by
  suffices h : ∀ r : Finset Capability, c ∈ caps.foldl
      (fun r cap =>
        match capsmap.lookup cap with
        | none => r
        | some c => insert c r) r ↔ c ∈ r ∨ ∃ name ∈ caps, capsmap.lookup name = some c by
    rw [toCapshashset, h]
    simp
  induction caps with
  | nil => simp
  | cons cap caps ih =>
    intro r
    rw [List.foldl_cons, ih]
    cases hcap : capsmap.lookup cap with
    | none => simp [hcap]
    | some d =>
      simp only [Finset.mem_insert, List.mem_cons, exists_eq_or_imp, hcap, Option.some.injEq]
      rw [or_comm (a := c = d), or_assoc, eq_comm (a := c)]

/-- The table renames every name in the list, unless it is one of the two that it does not have
as its own. -/
theorem toCapshashset_named {caps : List String} :
    (∀ c : Capability, c ∈ toCapshashset caps ↔ c.toString ∈ caps) ↔
      "CAP_AUDIT_CONTROL" ∉ caps ∧ "CAP_MAC_ADMIN" ∉ caps := by
  have hnot {c : Capability} (hc : c ∈ toCapshashset caps) :
      c ≠ .auditControl ∧ c ≠ .macAdmin := by
    obtain ⟨name, -, hname⟩ := mem_toCapshashset.1 hc
    exact (of_lookup_capsmap hname).2
  constructor
  · intro h
    exact ⟨fun hc => (hnot ((h .auditControl).2 hc)).1 rfl,
      fun hm => (hnot ((h .macAdmin).2 hm)).2 rfl⟩
  · intro ⟨hc, hm⟩ c
    constructor
    · intro hmem
      obtain ⟨name, hname, hlookup⟩ := mem_toCapshashset.1 hmem
      rcases (of_lookup_capsmap hlookup).1 with rfl | rfl
      · exact hname
      · exact absurd hname hc
    · intro hmem
      apply mem_toCapshashset.2
      refine ⟨c.toString, hmem, capsmap_toString ?_ ?_⟩
      · rintro rfl
        exact hc hmem
      · rintro rfl
        exact hm hmem

inductive CapSet where
  | ambient
  | bounding
  | effective
  | inheritable
  | permitted
  deriving DecidableEq

/-- What the crate is called with. -/
inductive CapsCall where
  | drop (cset : CapSet) (cap : Capability)
  | set (cset : CapSet) (caps : Finset Capability)
  deriving DecidableEq

/-- The order in which a set is walked, and how each call ends after those before it. -/
structure CapsGuest where
  order : Finset Capability → List Capability
  nodup_order : ∀ s, (order s).Nodup
  mem_order : ∀ s c, c ∈ order s ↔ c ∈ s
  fault : List CapsCall → CapsCall → Option String

namespace CapsGuest

def call (g : CapsGuest) (c : CapsCall) : Act (List CapsCall) ErrorKind Unit :=
  fun log => (.ofFault ((g.fault log c).map .caps), c :: log)

/-- The calls of a loop are made in their order, all of them if none fails. -/
theorem forM_call (g : CapsGuest) (calls log : List CapsCall) :
    ∃ made rest, calls = made ++ rest ∧ (calls.forM g.call log).2 = made.reverse ++ log ∧
      ((calls.forM g.call log).1 = .ok () → rest = []) := by
  induction calls generalizing log with
  | nil => exact ⟨[], [], rfl, rfl, fun _ => rfl⟩
  | cons c calls ih =>
    change ∃ made rest, c :: calls = made ++ rest ∧
      ((g.call c >>= fun _ => calls.forM g.call) log).2 = made.reverse ++ log ∧
      (((g.call c >>= fun _ => calls.forM g.call) log).1 = .ok () → rest = [])
    cases hf : g.fault log c with
    | none =>
      have hc : g.call c log = (.ok (), c :: log) := by rw [call, hf]; rfl
      rw [Act.bind_ok hc]
      obtain ⟨made, rest, hcalls, hlog, hok⟩ := ih (c :: log)
      refine ⟨c :: made, rest, by rw [hcalls, List.cons_append], ?_, hok⟩
      rw [hlog, List.reverse_cons, List.append_assoc, List.singleton_append]
    | some e =>
      have hc : g.call c log = (.err (.caps e), c :: log) := by rw [call, hf]; rfl
      rw [Act.bind_err hc]
      exact ⟨[c], calls, rfl, rfl, nofun⟩

theorem discard_call (g : CapsGuest) (c : CapsCall) (log : List CapsCall) :
    (g.call c).discard log = (.ok (), c :: log) := by
  rw [Act.discard, call]
  cases g.fault log c with
  | none => rfl
  | some e => rfl

end CapsGuest

def dropPriviledges (g : CapsGuest) (caps : Grpc.LinuxCapabilities) :
    Act (List CapsCall) ErrorKind Unit := do
  (g.order (Capability.all.toFinset \ toCapshashset caps.bounding)).forM fun c =>
    g.call (.drop .bounding c)
  g.call (.set .effective (toCapshashset caps.effective))
  g.call (.set .permitted (toCapshashset caps.permitted))
  g.call (.set .inheritable (toCapshashset caps.inheritable))
  (g.call (.set .ambient (toCapshashset caps.ambient))).discard

/-- The list of names for a set. -/
def Grpc.LinuxCapabilities.named (caps : Grpc.LinuxCapabilities) : CapSet → List String
  | .ambient => caps.ambient
  | .bounding => caps.bounding
  | .effective => caps.effective
  | .inheritable => caps.inheritable
  | .permitted => caps.permitted

/-- The calls ask for what is named, and a run without an error makes all of them. -/
structure AsNamed (caps : Grpc.LinuxCapabilities) (r : Outcome ErrorKind Unit × List CapsCall) :
    Prop where
  set : ∀ cset s, .set cset s ∈ r.2 → ∀ c, c ∈ s ↔ c.toString ∈ caps.named cset
  drop : ∀ cset c, .drop cset c ∈ r.2 → cset = .bounding ∧ c.toString ∉ caps.bounding
  every_set : r.1 = .ok () → ∀ cset, cset ≠ .bounding → ∃ s, .set cset s ∈ r.2
  every_drop : r.1 = .ok () → ∀ c, c.toString ∉ caps.bounding → .drop .bounding c ∈ r.2

/-- The calls whose errors end the run, in their order. -/
def requiredCalls (g : CapsGuest) (caps : Grpc.LinuxCapabilities) : List CapsCall :=
  (g.order (Capability.all.toFinset \ toCapshashset caps.bounding)).map (.drop .bounding) ++
    [.set .effective (toCapshashset caps.effective), .set .permitted (toCapshashset caps.permitted),
      .set .inheritable (toCapshashset caps.inheritable)]

def ambientCall (caps : Grpc.LinuxCapabilities) : CapsCall :=
  .set .ambient (toCapshashset caps.ambient)

theorem dropPriviledges_eq (g : CapsGuest) (caps : Grpc.LinuxCapabilities) :
    dropPriviledges g caps =
      (requiredCalls g caps).forM g.call >>= fun _ => (g.call (ambientCall caps)).discard := by
  have hmap (f : Capability → CapsCall) (l : List Capability) :
      (l.map f).forM g.call = l.forM fun c => g.call (f c) := by
    induction l with
    | nil => rfl
    | cons c l ih => exact congrArg (fun x => g.call (f c) >>= fun _ => x) ih
  rw [requiredCalls, Act.forM_append, hmap, Act.bind_assoc]
  simp only [Act.forM_cons_bind]
  rfl

/-- Every call is one of these, and a run without an error makes all of them. -/
theorem dropPriviledges_calls (g : CapsGuest) (caps : Grpc.LinuxCapabilities) :
    (∀ c ∈ (dropPriviledges g caps []).2, c ∈ requiredCalls g caps ∨ c = ambientCall caps) ∧
      ((dropPriviledges g caps []).1 = .ok () →
        ∀ c, c ∈ requiredCalls g caps ∨ c = ambientCall caps →
          c ∈ (dropPriviledges g caps []).2) := by
  rw [dropPriviledges_eq]
  obtain ⟨made, rest, hcalls, hlog, hok⟩ := g.forM_call (requiredCalls g caps) []
  rcases hrun : (requiredCalls g caps).forM g.call [] with ⟨r, log⟩
  rw [hrun] at hlog hok
  obtain rfl : log = made.reverse := hlog.trans (List.append_nil _)
  have hmade {c : CapsCall} (hc : c ∈ made.reverse) : c ∈ requiredCalls g caps := by
    rw [hcalls]
    exact List.mem_append_left rest (List.mem_reverse.1 hc)
  cases r with
  | ok u =>
    rw [Act.bind_ok hrun, CapsGuest.discard_call]
    obtain rfl := hok rfl
    constructor
    · intro c hc
      rcases List.mem_cons.1 hc with hc | hc
      · exact .inr hc
      · exact .inl (hmade hc)
    · intro _ c hc
      rcases hc with hc | hc
      · rw [hcalls, List.append_nil] at hc
        exact List.mem_cons_of_mem _ (List.mem_reverse.2 hc)
      · exact List.mem_cons.2 (.inl hc)
  | err e =>
    rw [Act.bind_err hrun]
    exact ⟨fun c hc => .inl (hmade hc), nofun⟩
  | panic =>
    rw [Act.bind_panic hrun]
    exact ⟨fun c hc => .inl (hmade hc), nofun⟩

theorem set_mem_requests {g : CapsGuest} {caps : Grpc.LinuxCapabilities} {cset : CapSet}
    {s : Finset Capability} : .set cset s ∈ requiredCalls g caps ∨ .set cset s = ambientCall caps ↔
      cset ≠ .bounding ∧ s = toCapshashset (caps.named cset) := by
  cases cset with
  | _ => simp [requiredCalls, ambientCall, Grpc.LinuxCapabilities.named]

theorem drop_mem_requests {g : CapsGuest} {caps : Grpc.LinuxCapabilities} {cset : CapSet}
    {c : Capability} : .drop cset c ∈ requiredCalls g caps ∨ .drop cset c = ambientCall caps ↔
      cset = .bounding ∧ c ∉ toCapshashset caps.bounding := by
  simp [requiredCalls, ambientCall, g.mem_order, Capability.mem_all, eq_comm, and_comm]

theorem asNamed_of_named {caps : Grpc.LinuxCapabilities} (g : CapsGuest)
    (h : ∀ cset c, c ∈ toCapshashset (caps.named cset) ↔ c.toString ∈ caps.named cset) :
    AsNamed caps (dropPriviledges g caps []) := by
  obtain ⟨honly, hall⟩ := dropPriviledges_calls g caps
  constructor
  case set =>
    intro cset s hs
    rw [(set_mem_requests.1 (honly _ hs)).2]
    exact h cset
  case drop =>
    intro cset c hc
    obtain ⟨hcset, hnot⟩ := drop_mem_requests.1 (honly _ hc)
    exact ⟨hcset, fun hmem => hnot ((h .bounding c).2 hmem)⟩
  case every_set =>
    intro hok cset hcset
    exact ⟨_, hall hok _ (set_mem_requests.2 ⟨hcset, rfl⟩)⟩
  case every_drop =>
    intro hok c hc
    exact hall hok _ (drop_mem_requests.2 ⟨rfl, fun hmem => hc ((h .bounding c).1 hmem)⟩)

/-- The guest that refuses nothing. -/
def CapsGuest.willing : CapsGuest where
  order s := Capability.all.filter (· ∈ s)
  nodup_order s := (by decide : Capability.all.Nodup).filter _
  mem_order s c := by simp [Capability.mem_all]
  fault _ _ := none

theorem willing_isOk (caps : Grpc.LinuxCapabilities) :
    (dropPriviledges .willing caps []).1 = .ok () := by
  rw [dropPriviledges_eq]
  have hloop (calls : List CapsCall) :
      ∀ log, (calls.forM CapsGuest.willing.call log).1 = .ok () := by
    induction calls with
    | nil => exact fun _ => rfl
    | cons c calls ih => exact fun log => ih (c :: log)
  rcases hrun : (requiredCalls .willing caps).forM CapsGuest.willing.call [] with ⟨r, log⟩
  obtain rfl : r = .ok () := (congrArg Prod.fst hrun).symm.trans (hloop _ _)
  rw [Act.bind_ok hrun, CapsGuest.discard_call]

theorem named_of_asNamed {caps : Grpc.LinuxCapabilities}
    (h : AsNamed caps (dropPriviledges .willing caps [])) (cset : CapSet) (c : Capability) :
    c ∈ toCapshashset (caps.named cset) ↔ c.toString ∈ caps.named cset := by
  obtain ⟨honly, hall⟩ := dropPriviledges_calls .willing caps
  have hok := willing_isOk caps
  by_cases hcset : cset = .bounding
  · subst hcset
    have hdrop : c.toString ∉ caps.bounding ↔ c ∉ toCapshashset caps.bounding :=
      ⟨fun hc => (drop_mem_requests.1 (honly _ (h.every_drop hok c hc))).2,
        fun hc => (h.drop _ _ (hall hok _ (drop_mem_requests.2 ⟨rfl, hc⟩))).2⟩
    exact (not_iff_not.1 hdrop).symm
  · exact h.set cset _ (hall hok _ (set_mem_requests.2 ⟨hcset, rfl⟩)) c

/-- Whatever the guest answers, what is asked for is what is named, exactly when no list has one
of the two names without a row of their own. -/
theorem dropPriviledges_asNamed (caps : Grpc.LinuxCapabilities) :
    (∀ g, AsNamed caps (dropPriviledges g caps [])) ↔
      ∀ cset, "CAP_AUDIT_CONTROL" ∉ caps.named cset ∧ "CAP_MAC_ADMIN" ∉ caps.named cset := by
  constructor
  · intro h cset
    exact toCapshashset_named.1 (named_of_asNamed (h .willing) cset)
  · intro h g
    exact asNamed_of_named g fun cset => toCapshashset_named.2 (h cset)

/-- Control of the audit is asked for, and writing to it is given. -/
theorem dropPriviledges_audit : ¬ ∀ caps g, AsNamed caps (dropPriviledges g caps []) := by
  intro h
  have hset := (h ⟨[], ["CAP_AUDIT_CONTROL"], [], [], []⟩ .willing).set .effective
    {.auditWrite} (by decide) .auditWrite
  exact absurd hset (by decide)

end KataAgent
