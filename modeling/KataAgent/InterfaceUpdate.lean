import KataAgent.InterfaceListing
import KataAgent.RouteConversion

namespace KataAgent
open Fallible Records
set_option autoImplicit true

def IFF_UP : UInt32 := 1

def IFA_F_SECONDARY : UInt8 := 1

def EADDRNOTAVAIL : Errno := .other 99

/-- A primary address of a link, with the addresses that depend on it. -/
structure AddressGroup where
  primary : RtIPAddr
  secondaries : List RtIPAddr
  deriving DecidableEq

def AddressGroup.addresses (g : AddressGroup) : List RtIPAddr := g.primary :: g.secondaries

/-- What remains when the primary address is promoted away. -/
def AddressGroup.promoted (g : AddressGroup) : List AddressGroup :=
  match g.secondaries with
  | [] => []
  | a :: as => [⟨a, as⟩]

structure LinkState where
  flags : UInt32
  groups : List AddressGroup
  name : Bytes
  mtu : UInt32
  deriving DecidableEq

/-- The addresses of a link. -/
def allAddresses (groups : List AddressGroup) : List RtIPAddr :=
  (groups.map AddressGroup.addresses).flatten

structure LinkSocket where
  link : LinkState
  requests : Nat
  deriving DecidableEq

/-- What the kernel makes of the requests about a link. -/
structure LinkKernel where
  /-- The fault at a request, by its number. -/
  refuses : Nat → Option ErrorKind
  links : Outcome ErrorKind (List Bytes)
  /-- The dump of all addresses, of which this link has some. -/
  dump : List AddressGroup → List Bytes
  promotes : Bool
  sameNetwork : RtIPAddr → RtIPAddr → Bool
  /-- The address that is stored for one in a request, if it is taken. -/
  address : RtIPAddr → Option RtIPAddr
  /-- The name that is stored for one in a request, if it is taken. -/
  name : Bytes → Option Bytes

variable {K : LinkKernel} {cv : Converter} {scan : String → Outcome ErrorKind Bytes}
  {s t : LinkSocket} {groups groups' : List AddressGroup} {a : RtIPAddr} {as : List RtIPAddr}

/-- The deletion of a primary address promotes its first secondary one, or takes all of them. -/
def LinkKernel.deleteAddr (K : LinkKernel) (groups : List AddressGroup) (a : RtIPAddr) :
    Outcome ErrorKind (List AddressGroup) :=
  match groups.find? (·.primary = a) with
  | some g => .ok ((if K.promotes then g.promoted else []) ++ groups.erase g)
  | none =>
    match groups.find? (a ∈ ·.secondaries) with
    | some g => .ok (⟨g.primary, g.secondaries.erase a⟩ :: groups.erase g)
    | none => .err (.nix EADDRNOTAVAIL)

/-- In a network that the link is in, an address becomes a secondary one. -/
def LinkKernel.newAddr (K : LinkKernel) (groups : List AddressGroup) (a : RtIPAddr) :
    Outcome ErrorKind (List AddressGroup) := do
  let a ← .ofOption (.nix .EINVAL) (K.address a)
  if a ∈ allAddresses groups then .err (.nix EEXIST)
  else
    match groups.find? fun g => K.sameNetwork g.primary a with
    | some g => .ok (⟨g.primary, g.secondaries ++ [a]⟩ :: groups.erase g)
    | none => .ok (groups ++ [⟨a, []⟩])

/-- `RTM_NEWLINK` with a header and the attributes for the MTU and the name. -/
def LinkKernel.setLink (K : LinkKernel) (m : IfInfoMsg) (mtu : Option UInt32) (name : Option Bytes)
    (link : LinkState) : Outcome ErrorKind LinkState := do
  let name ← match name with
    | none => .ok link.name
    | some name => .ofOption (.nix .EINVAL) (K.name name)
  .ok {
    flags := (link.flags &&& ~~~m.change) ||| (m.flags &&& m.change)
    groups := link.groups
    name
    mtu := mtu.getD link.mtu }

def LinkKernel.ask (K : LinkKernel) (read : LinkState → Outcome ErrorKind α) :
    Act LinkSocket ErrorKind α :=
  .ask K.refuses (·.requests) (fun s => { s with requests := s.requests + 1 }) fun s => read s.link

def LinkKernel.talk (K : LinkKernel) (change : LinkState → Outcome ErrorKind LinkState) :
    Act LinkSocket ErrorKind Unit := do
  let link ← K.ask change
  Act.modify fun s => { s with link }

def setLinkStatus (K : LinkKernel) (ifinfo : IfInfoMsg) (up : Bool) :
    Act LinkSocket ErrorKind Unit :=
  K.talk (K.setLink ⟨ifinfo.family, ifinfo.type, ifinfo.index, if up then IFF_UP else 0, IFF_UP⟩
    none none)

def changeGroups (change : List AddressGroup → Outcome ErrorKind (List AddressGroup))
    (link : LinkState) : Outcome ErrorKind LinkState := do
  let groups ← change link.groups
  .ok { link with groups }

def deleteAllAddrs (K : LinkKernel) (addrs : List RtIPAddr) : Act LinkSocket ErrorKind Unit :=
  addrs.forM fun a => K.talk (changeGroups (K.deleteAddr · a))

/-- The address in a message of the dump. Without either attribute a null pointer is read. -/
def linkAddress (alh : Bytes) : Outcome ErrorKind RtIPAddr := do
  let attrs ← Family.addr.parse (IFA_MAX + 1) alh
  let t ← .ofUnwrap ((attrAt attrs IFA_ADDRESS).or (attrAt attrs IFA_LOCAL))
  let addr ← .ofUnwrap (getattrVar t)
  .ok ⟨(ifAddrMsg alh).family, (ifAddrMsg alh).prefixlen, addr⟩

/-- The message is about an address of the link that is not a secondary one. -/
def ownPrimary (index : UInt32) (alh : Bytes) : Bool :=
  (ifAddrMsg alh).flags &&& IFA_F_SECONDARY = 0 ∧ (ifAddrMsg alh).index = index

def getLinkAddresses (K : LinkKernel) (ifinfo : IfInfoMsg) :
    Act LinkSocket ErrorKind (List RtIPAddr) :=
  K.ask fun link =>
    ((Family.addr.messages (K.dump link.groups)).filter (ownPrimary ifinfo.index)).mapM linkAddress

/-- The fields of an `Interface` that `update_interface` reads. -/
structure RequestedInterface extends Interface where
  hwAddr : String
  IPAddresses : List IPAddress
  deriving DecidableEq

/-- The loop over the addresses of the request. -/
def addAddresses (K : LinkKernel) (cv : Converter) (IPAddresses : List IPAddress) :
    Act LinkSocket ErrorKind Unit :=
  IPAddresses.forM fun grpc_addr => do
    let rtip ← .lift (rtIPAddrFrom cv grpc_addr)
    K.talk (changeGroups (K.newAddr · rtip))

/-- `RtnlHandle::update_interface`. The search for the link counts as one request. -/
def RtnlHandle.updateInterface (K : LinkKernel) (cv : Converter)
    (scan : String → Outcome ErrorKind Bytes) (iface : RequestedInterface) :
    Act LinkSocket ErrorKind RequestedInterface := do
  let ifinfo ← K.ask fun _ => findLinkByHwaddr scan K.links iface.hwAddr
  (if ifinfo.flags &&& IFF_UP ≠ 0 then setLinkStatus K ifinfo false else pure ())
  let del_addrs ← getLinkAddresses K ifinfo
  deleteAllAddrs K del_addrs
  addAddresses K cv iface.IPAddresses
  let noarp := if iface.raw_flags &&& IFF_NOARP ≠ 0 then IFF_NOARP else 0
  K.talk (K.setLink ⟨ifinfo.family, ifinfo.type, ifinfo.index, noarp, noarp⟩
    (some iface.mtu.toUInt32) (some iface.name))
  Act.discard (setLinkStatus K ifinfo true)
  pure iface

/-- The message has this address. -/
structure SaysAddress (alh : Bytes) (a : RtIPAddr) : Prop where
  formed : Family.addr.Formed alh
  address :
    (Family.addr.payload alh IFA_ADDRESS).or (Family.addr.payload alh IFA_LOCAL) = some a.addr
  family : (ifAddrMsg alh).family = a.ip_family
  prefixlen : (ifAddrMsg alh).prefixlen = a.ip_mask

/-- The dump has the primary addresses of the link, and marks the secondary ones. -/
structure DumpsPrimaries (index : UInt32) (groups : List AddressGroup) (av : List Bytes) :
    Prop where
  formed : Family.addr.FormedDump av
  primaries : List.Forall₂ SaysAddress ((av.filter Family.addr.reads).filter (ownPrimary index))
    (groups.map AddressGroup.primary)

/-- The link has exactly the requested addresses, the requested name and MTU, and is up. -/
structure AsRequested (cv : Converter) (iface : RequestedInterface) (link : LinkState) : Prop where
  addresses : ∃ as, List.Forall₂ (fun ip a => rtIPAddrFrom cv ip = .ok a) iface.IPAddresses as ∧
    (allAddresses link.groups).Perm as
  name : link.name = iface.name
  mtu : link.mtu.toNat = iface.mtu.toNat
  up : link.flags &&& IFF_UP ≠ 0

/-- The number of the request that brings the link up. -/
def lastRequest (s : LinkSocket) (iface : RequestedInterface) : Nat :=
  s.requests + (if s.link.flags &&& IFF_UP ≠ 0 then 1 else 0) + s.link.groups.length +
    iface.IPAddresses.length + 3

/-- The kernel drops secondary addresses, or there are none, and it takes what is requested as it
is. -/
structure UpdatesLink (K : LinkKernel) (cv : Converter) (iface : RequestedInterface)
    (s : LinkSocket) : Prop where
  secondaries : K.promotes = true → ∀ g ∈ s.link.groups, g.secondaries = []
  addresses : ∀ ip ∈ iface.IPAddresses, ∀ a, rtIPAddrFrom cv ip = .ok a → K.address a = some a
  name : K.name iface.name = some iface.name
  mtu : iface.mtu.toNat < 2 ^ 32
  up : K.refuses (lastRequest s iface) = none

theorem allAddresses_perm (h : groups.Perm groups') :
    (allAddresses groups).Perm (allAddresses groups') := (h.map _).flatten

@[simp] theorem allAddresses_cons {g : AddressGroup} :
    allAddresses (g :: groups) = g.primary :: (g.secondaries ++ allAddresses groups) := rfl

@[simp] theorem allAddresses_append :
    allAddresses (groups ++ groups') = allAddresses groups ++ allAddresses groups' := by
  simp [allAddresses]

theorem allAddresses_promoted {g : AddressGroup} : allAddresses g.promoted = g.secondaries := by
  rw [AddressGroup.promoted]
  cases g.secondaries with
  | nil => rfl
  | cons a as => exact congrArg (a :: ·) (List.append_nil as)

theorem perm_of_find {p : AddressGroup → Bool} {g : AddressGroup} (h : groups.find? p = some g) :
    groups.Perm (g :: groups.erase g) := List.perm_cons_erase (List.mem_of_find?_eq_some h)

/-- A kernel that promotes secondary addresses deletes one address. -/
theorem LinkKernel.deleteAddr_perm (hp : K.promotes = true)
    (h : K.deleteAddr groups a = .ok groups') :
    (allAddresses groups).Perm (a :: allAddresses groups') := by
  rw [LinkKernel.deleteAddr, hp] at h
  cases hf : groups.find? (·.primary = a) with
  | some g =>
    rw [hf] at h
    cases h
    have ha := List.find?_some hf
    have hperm := allAddresses_perm (perm_of_find hf)
    simp only [decide_eq_true_eq] at ha
    rwa [allAddresses_cons, ha, ← allAddresses_promoted, ← allAddresses_append] at hperm
  | none =>
    rw [hf] at h
    dsimp only at h
    cases hs : groups.find? (a ∈ ·.secondaries) with
    | none =>
      rw [hs] at h
      cases h
    | some g =>
      rw [hs] at h
      cases h
      have ha := List.find?_some hs
      have hperm := allAddresses_perm (perm_of_find hs)
      simp only [decide_eq_true_eq] at ha
      have hsec := ((List.perm_cons_erase ha).append_right (allAddresses (groups.erase g))).cons
        g.primary
      exact (hperm.trans hsec).trans (.swap _ _ _)

/-- A kernel that does not takes the group of a primary address. -/
theorem LinkKernel.deleteAddr_primaries (hp : K.promotes = false)
    (ha : a ∈ groups.map AddressGroup.primary) (h : K.deleteAddr groups a = .ok groups') :
    (groups.map AddressGroup.primary).Perm (a :: groups'.map AddressGroup.primary) := by
  rw [LinkKernel.deleteAddr, hp] at h
  cases hf : groups.find? (·.primary = a) with
  | some g =>
    rw [hf] at h
    cases h
    have hg := List.find?_some hf
    have hperm := (perm_of_find hf).map AddressGroup.primary
    simp only [decide_eq_true_eq] at hg
    rwa [List.map_cons, hg] at hperm
  | none =>
    obtain ⟨g, hm, hg⟩ := List.mem_map.1 ha
    exact absurd (decide_eq_true hg) (List.find?_eq_none.1 hf g hm)

theorem foldlM_deleteAddr_perm (hp : K.promotes = true)
    (h : as.foldlM K.deleteAddr groups = .ok groups') :
    (allAddresses groups).Perm (as ++ allAddresses groups') := by
  induction as generalizing groups with
  | nil =>
    cases h
    exact .refl _
  | cons a as ih =>
    obtain ⟨mid, ha, h⟩ := Outcome.bind_eq_ok.1 h
    exact (LinkKernel.deleteAddr_perm hp ha).trans ((ih h).cons a)

theorem foldlM_deleteAddr_primaries (hp : K.promotes = false)
    (hall : (groups.map AddressGroup.primary).Perm as)
    (h : as.foldlM K.deleteAddr groups = .ok groups') : groups' = [] := by
  induction as generalizing groups with
  | nil =>
    cases h
    exact List.map_eq_nil_iff.1 hall.eq_nil
  | cons a as ih =>
    obtain ⟨mid, ha, h⟩ := Outcome.bind_eq_ok.1 h
    have hm := LinkKernel.deleteAddr_primaries hp (hall.mem_iff.2 List.mem_cons_self) ha
    exact ih (hm.symm.trans hall).cons_inv h

theorem allAddresses_perm_primaries (groups : List AddressGroup) : (allAddresses groups).Perm
    (groups.map AddressGroup.primary ++ (groups.map AddressGroup.secondaries).flatten) := by
  induction groups with
  | nil => exact .refl _
  | cons g groups ih =>
    rw [allAddresses_cons, List.map_cons, List.map_cons, List.flatten_cons, List.cons_append]
    have hmid := ih.append_left g.secondaries
    have hswap : (g.secondaries ++ (groups.map AddressGroup.primary ++
        (groups.map AddressGroup.secondaries).flatten)).Perm
        (groups.map AddressGroup.primary ++ (g.secondaries ++
          (groups.map AddressGroup.secondaries).flatten)) := by
      rw [← List.append_assoc, ← List.append_assoc]
      exact List.perm_append_comm.append_right _
    exact (hmid.trans hswap).cons g.primary

/-- After all primary addresses are deleted, the secondary ones remain if they were promoted. -/
theorem foldlM_deleteAddr_kept
    (h : (groups.map AddressGroup.primary).foldlM K.deleteAddr groups = .ok groups') :
    allAddresses groups' = [] ↔ (K.promotes = true → ∀ g ∈ groups, g.secondaries = []) := by
  cases hp : K.promotes with
  | false =>
    rw [foldlM_deleteAddr_primaries hp (.refl _) h]
    exact iff_of_true rfl nofun
  | true =>
    have hkept := (foldlM_deleteAddr_perm hp h).symm.trans (allAddresses_perm_primaries groups)
    have hsec := (List.perm_append_left_iff _).1 hkept
    rw [← List.perm_nil, hsec.congr_left]
    simp

theorem LinkKernel.newAddr_perm (h : K.newAddr groups a = .ok groups') :
    ∃ b, K.address a = some b ∧ (allAddresses groups').Perm (b :: allAddresses groups) := by
  obtain ⟨b, hb, h⟩ := Outcome.bind_eq_ok.1 h
  cases ha : K.address a with
  | none =>
    rw [ha] at hb
    cases hb
  | some b' =>
    rw [ha] at hb
    cases hb
    refine ⟨b, rfl, ?_⟩
    by_cases hm : b ∈ allAddresses groups
    · rw [if_pos hm] at h
      cases h
    · rw [if_neg hm] at h
      cases hf : groups.find? fun g => K.sameNetwork g.primary b with
      | none =>
        rw [hf] at h
        cases h
        rw [allAddresses_append]
        exact List.perm_append_singleton b _
      | some g =>
        rw [hf] at h
        cases h
        have hperm := allAddresses_perm (perm_of_find hf)
        rw [allAddresses_cons] at hperm ⊢
        have hb : (g.primary :: ((g.secondaries ++ [b]) ++ allAddresses (groups.erase g))).Perm
            (g.primary :: b :: (g.secondaries ++ allAddresses (groups.erase g))) :=
          ((List.perm_append_singleton b _).append_right _).cons g.primary
        exact hb.trans ((List.Perm.swap _ _ _).trans (hperm.symm.cons b))

theorem LinkKernel.ask_eq_ok {α : Type} {x : α} {read : LinkState → Outcome ErrorKind α} :
    K.ask read s = (.ok x, t) ↔ K.refuses s.requests = none ∧ read s.link = .ok x ∧
      t = { s with requests := s.requests + 1 } := Act.ask_eq_ok

theorem LinkKernel.talk_eq_ok {change : LinkState → Outcome ErrorKind LinkState} :
    K.talk change s = (.ok (), t) ↔ K.refuses s.requests = none ∧
      ∃ link, change s.link = .ok link ∧ t = ⟨link, s.requests + 1⟩ := by
  rw [LinkKernel.talk, Act.bind_eq_ok]
  constructor
  · rintro ⟨link, u, ha, hm⟩
    obtain ⟨hr, hc, rfl⟩ := LinkKernel.ask_eq_ok.1 ha
    cases hm
    exact ⟨hr, link, hc, rfl⟩
  · rintro ⟨hr, link, hc, rfl⟩
    exact ⟨link, _, LinkKernel.ask_eq_ok.2 ⟨hr, hc, rfl⟩, rfl⟩

theorem changeGroups_eq_ok {change : List AddressGroup → Outcome ErrorKind (List AddressGroup)}
    {link link' : LinkState} : changeGroups change link = .ok link' ↔
      ∃ groups, change link.groups = .ok groups ∧ link' = { link with groups } := by
  rw [changeGroups, Outcome.bind_eq_ok]
  simp only [Outcome.ok.injEq, eq_comm]

theorem deleteAllAddrs_ok (h : deleteAllAddrs K as s = (.ok (), t)) : ∃ groups,
    as.foldlM K.deleteAddr s.link.groups = .ok groups ∧
      t = ⟨{ s.link with groups }, s.requests + as.length⟩ := by
  induction as generalizing s with
  | nil =>
    cases h
    exact ⟨_, rfl, rfl⟩
  | cons a as ih =>
    obtain ⟨⟨⟩, u, ha, h⟩ := Act.bind_eq_ok.1 h
    obtain ⟨-, link, hc, rfl⟩ := LinkKernel.talk_eq_ok.1 ha
    obtain ⟨mid, hd, rfl⟩ := changeGroups_eq_ok.1 hc
    obtain ⟨groups, hg, rfl⟩ := ih h
    refine ⟨groups, Outcome.bind_eq_ok.2 ⟨mid, hd, hg⟩, ?_⟩
    rw [List.length_cons, Nat.add_comm as.length, ← Nat.add_assoc]

/-- What the link has of the addresses of the request. -/
theorem addAddresses_ok {ips : List IPAddress} (h : addAddresses K cv ips s = (.ok (), t)) :
    ∃ as bs groups, List.Forall₂ (fun ip a => rtIPAddrFrom cv ip = .ok a) ips as ∧
      List.Forall₂ (fun a b => K.address a = some b) as bs ∧
      (allAddresses groups).Perm (bs ++ allAddresses s.link.groups) ∧
      t = ⟨{ s.link with groups }, s.requests + ips.length⟩ := by
  induction ips generalizing s with
  | nil =>
    cases h
    exact ⟨[], [], _, .nil, .nil, .refl _, rfl⟩
  | cons ip ips ih =>
    obtain ⟨⟨⟩, u, hone, h⟩ := Act.bind_eq_ok.1 h
    obtain ⟨a, v, hl, ht⟩ := Act.bind_eq_ok.1 hone
    obtain ⟨ha, rfl⟩ := Prod.ext_iff.1 hl
    obtain ⟨-, link, hc, rfl⟩ := LinkKernel.talk_eq_ok.1 ht
    obtain ⟨mid, hn, rfl⟩ := changeGroups_eq_ok.1 hc
    obtain ⟨b, hb, hperm⟩ := LinkKernel.newAddr_perm hn
    obtain ⟨as, bs, groups, has, hbs, hg, rfl⟩ := ih h
    refine ⟨a :: as, b :: bs, groups, .cons ha has, .cons hb hbs, ?_, ?_⟩
    · exact (hg.trans (hperm.append_left bs)).trans List.perm_middle
    · rw [List.length_cons, Nat.add_comm ips.length, ← Nat.add_assoc]
      rfl

theorem linkAddress_eq {alh : Bytes} (h : SaysAddress alh a) : linkAddress alh = .ok a := by
  obtain ⟨attrs, ha, hat⟩ := h.formed.parse (IFA_MAX + 1)
  have haddr := h.address
  rw [Family.payload, Family.payload, ← Option.map_or] at haddr
  obtain ⟨t, ht, hdrop⟩ := Option.map_eq_some_iff.1 haddr
  have hvar : getattrVar t = some (t.drop 4) := by
    rcases Option.or_eq_some_iff.1 ht with ht | ⟨-, ht⟩
    · exact Family.getattrVar_attr ht
    · exact Family.getattrVar_attr ht
  rw [linkAddress, ha, Outcome.ok_bind, hat IFA_ADDRESS (by decide), hat IFA_LOCAL (by decide), ht,
    Outcome.ofUnwrap_some, Outcome.ok_bind, hvar, Outcome.ofUnwrap_some, Outcome.ok_bind, hdrop,
    h.family, h.prefixlen]

theorem DumpsPrimaries.mapM {index : UInt32} {av : List Bytes}
    (h : DumpsPrimaries index groups av) :
    ((Family.addr.messages av).filter (ownPrimary index)).mapM linkAddress =
      .ok (groups.map AddressGroup.primary) := by
  rw [Family.messages_eq h.formed, Outcome.mapM_eq_ok]
  exact h.primaries.imp fun _ _ => linkAddress_eq

theorem or_and_bits (x y z : UInt32) : (x ||| y) &&& z = (x &&& z) ||| (y &&& z) :=
  UInt32.toBitVec_inj.1 BitVec.and_or_distrib_right

/-- The bit after a request that changes the flags. -/
theorem IFF_UP_of_change (flags new change : UInt32) :
    ((flags &&& ~~~change) ||| (new &&& change)) &&& IFF_UP =
      (flags &&& (~~~change &&& IFF_UP)) ||| (new &&& change &&& IFF_UP) := by
  rw [or_and_bits, UInt32.and_assoc]

theorem IFF_UP_of_status (flags : UInt32) (up : Bool) :
    ((flags &&& ~~~IFF_UP) ||| ((if up then IFF_UP else 0) &&& IFF_UP)) &&& IFF_UP =
      if up then IFF_UP else 0 := by
  have hn : ~~~IFF_UP &&& IFF_UP = 0 := by decide
  rw [IFF_UP_of_change, hn, UInt32.and_zero, UInt32.zero_or]
  cases up <;> rfl

theorem IFF_UP_of_noarp (flags raw : UInt32) :
    ((flags &&& ~~~(if raw &&& IFF_NOARP ≠ 0 then IFF_NOARP else 0)) |||
      ((if raw &&& IFF_NOARP ≠ 0 then IFF_NOARP else 0) &&&
        (if raw &&& IFF_NOARP ≠ 0 then IFF_NOARP else 0))) &&& IFF_UP = flags &&& IFF_UP := by
  have hzero : ~~~(0 : UInt32) &&& IFF_UP = IFF_UP := by decide
  have hnoarp : ~~~IFF_NOARP &&& IFF_UP = IFF_UP := by decide
  have hnone : IFF_NOARP &&& IFF_NOARP &&& IFF_UP = 0 := by decide
  rw [IFF_UP_of_change]
  split
  · rw [hnoarp, hnone, UInt32.or_zero]
  · rw [hzero]
    exact UInt32.or_zero

theorem setLinkStatus_eq_ok {ifinfo : IfInfoMsg} {up : Bool} :
    setLinkStatus K ifinfo up s = (.ok (), t) ↔ K.refuses s.requests = none ∧
      t = ⟨{ s.link with flags :=
        (s.link.flags &&& ~~~IFF_UP) ||| ((if up then IFF_UP else 0) &&& IFF_UP) },
        s.requests + 1⟩ := by
  rw [setLinkStatus, LinkKernel.talk_eq_ok]
  constructor
  · rintro ⟨hr, link, ⟨⟩, rfl⟩
    exact ⟨hr, rfl⟩
  · rintro ⟨hr, rfl⟩
    exact ⟨hr, _, rfl, rfl⟩

/-- A link that is up is brought down. -/
theorem downStep_ok {ifinfo : IfInfoMsg} (hf : ifinfo.flags = s.link.flags)
    (h : (if ifinfo.flags &&& IFF_UP ≠ 0 then setLinkStatus K ifinfo false else pure ()) s =
      (.ok (), t)) : ∃ flags, flags &&& IFF_UP = 0 ∧
        t = ⟨{ s.link with flags }, s.requests + if s.link.flags &&& IFF_UP ≠ 0 then 1 else 0⟩ := by
  rw [hf] at h
  by_cases hu : s.link.flags &&& IFF_UP ≠ 0
  · rw [if_pos hu] at h ⊢
    obtain ⟨-, rfl⟩ := setLinkStatus_eq_ok.1 h
    exact ⟨_, IFF_UP_of_status _ false, rfl⟩
  · rw [if_neg hu] at h ⊢
    cases h
    exact ⟨s.link.flags, not_not.1 hu, rfl⟩

/-- The link is up after the last request if that was accepted. -/
theorem upStep_ok {ifinfo : IfInfoMsg} (hd : s.link.flags &&& IFF_UP = 0)
    (h : Act.discard (setLinkStatus K ifinfo true) s = (.ok (), t)) : ∃ flags,
      t.link = { s.link with flags } ∧ (flags &&& IFF_UP ≠ 0 ↔ K.refuses s.requests = none) := by
  rw [Act.discard] at h
  cases hr : K.refuses s.requests with
  | none =>
    have hup : setLinkStatus K ifinfo true s = (.ok (), _) := setLinkStatus_eq_ok.2 ⟨hr, rfl⟩
    rw [hup] at h
    cases h
    refine ⟨_, rfl, iff_of_true ?_ rfl⟩
    rw [IFF_UP_of_status]
    decide
  | some e =>
    have hno : setLinkStatus K ifinfo true s =
        (.err e, { s with requests := s.requests + 1 }) := by
      rw [setLinkStatus, LinkKernel.talk]
      apply Act.bind_err
      rw [LinkKernel.ask, Act.ask, hr]
    rw [hno] at h
    cases h
    exact ⟨s.link.flags, rfl, iff_of_false (not_not.2 hd) (Option.some_ne_none e)⟩

theorem setLink_eq_ok {m : IfInfoMsg} {mtu : UInt32} {name : Bytes} {link link' : LinkState} :
    K.setLink m (some mtu) (some name) link = .ok link' ↔ ∃ n, K.name name = some n ∧
      link' = ⟨(link.flags &&& ~~~m.change) ||| (m.flags &&& m.change), link.groups, n, mtu⟩ := by
  rw [LinkKernel.setLink]
  dsimp only
  cases K.name name with
  | none => exact iff_of_false nofun fun ⟨_, h, _⟩ => nomatch h
  | some n => simp [Outcome.ofOption, eq_comm]

/-- What a successful update did to the link. -/
theorem updateInterface_ok {iface iface' : RequestedInterface}
    (hk : ∀ ifinfo, findLinkByHwaddr scan K.links iface.hwAddr = .ok ifinfo →
      ifinfo.flags = s.link.flags ∧
        DumpsPrimaries ifinfo.index s.link.groups (K.dump s.link.groups))
    (h : RtnlHandle.updateInterface K cv scan iface s = (.ok iface', t)) :
    ∃ as bs kept, (s.link.groups.map AddressGroup.primary).foldlM K.deleteAddr s.link.groups =
        .ok kept ∧
      List.Forall₂ (fun ip a => rtIPAddrFrom cv ip = .ok a) iface.IPAddresses as ∧
      List.Forall₂ (fun a b => K.address a = some b) as bs ∧
      (allAddresses t.link.groups).Perm (bs ++ allAddresses kept) ∧
      K.name iface.name = some t.link.name ∧ t.link.mtu = iface.mtu.toUInt32 ∧
      (t.link.flags &&& IFF_UP ≠ 0 ↔ K.refuses (lastRequest s iface) = none) := by
  obtain ⟨ifinfo, s₁, hfind, h⟩ := Act.bind_eq_ok.1 h
  obtain ⟨-, hfound, rfl⟩ := LinkKernel.ask_eq_ok.1 hfind
  obtain ⟨hflags, hdump⟩ := hk ifinfo hfound
  obtain ⟨⟨⟩, s₂, hdown, h⟩ := Act.bind_eq_ok.1 h
  obtain ⟨flags, hzero, rfl⟩ :=
    downStep_ok (s := { s with requests := s.requests + 1 }) hflags hdown
  obtain ⟨addrs, s₃, hget, h⟩ := Act.bind_eq_ok.1 h
  obtain ⟨-, hread, rfl⟩ := LinkKernel.ask_eq_ok.1 hget
  cases hdump.mapM.symm.trans hread
  obtain ⟨⟨⟩, s₄, hdel, h⟩ := Act.bind_eq_ok.1 h
  obtain ⟨kept, hkept, rfl⟩ := deleteAllAddrs_ok hdel
  obtain ⟨⟨⟩, s₅, hadd, h⟩ := Act.bind_eq_ok.1 h
  obtain ⟨as, bs, groups, has, hbs, hperm, rfl⟩ := addAddresses_ok hadd
  obtain ⟨⟨⟩, s₆, hset, h⟩ := Act.bind_eq_ok.1 h
  obtain ⟨-, link, hlink, rfl⟩ := LinkKernel.talk_eq_ok.1 hset
  obtain ⟨name, hname, rfl⟩ := setLink_eq_ok.1 hlink
  obtain ⟨⟨⟩, s₇, hup, h⟩ := Act.bind_eq_ok.1 h
  cases h
  have hdown' : ((flags &&& ~~~(if iface.raw_flags &&& IFF_NOARP ≠ 0 then IFF_NOARP else 0)) |||
      ((if iface.raw_flags &&& IFF_NOARP ≠ 0 then IFF_NOARP else 0) &&&
        (if iface.raw_flags &&& IFF_NOARP ≠ 0 then IFF_NOARP else 0))) &&& IFF_UP = 0 := by
    rw [IFF_UP_of_noarp, hzero]
  obtain ⟨flags', hlast, hiff⟩ := upStep_ok hdown' hup
  refine ⟨as, bs, kept, hkept, has, hbs, ?_, ?_, ?_, ?_⟩
  · rw [hlast]
    exact hperm
  · rw [hlast]
    exact hname
  · rw [hlast]
  · rw [hlast, hiff]
    have hnumber : s.requests + 1 + (if s.link.flags &&& IFF_UP ≠ 0 then 1 else 0) + 1 +
        (s.link.groups.map AddressGroup.primary).length + iface.IPAddresses.length + 1 =
          lastRequest s iface := by
      rw [lastRequest, List.length_map]
      omega
    rw [← hnumber]

theorem map_eq_map_of_forall₂ {f : α → γ} {g : β → γ} {l : List α} {m : List β}
    (h : List.Forall₂ (fun a b => f a = g b) l m) : l.map f = m.map g := by
  rw [← List.forall₂_eq_eq_eq, List.forall₂_map_left_iff, List.forall₂_map_right_iff]
  exact h

/-- What is stored is what was requested exactly if each address is stored as it is. -/
theorem stored_perm_iff {kept bs : List RtIPAddr}
    (hidem : ∀ a b, K.address a = some b → K.address b = some b)
    (h : List.Forall₂ (fun a b => K.address a = some b) as bs) :
    (bs ++ kept).Perm as ↔ kept = [] ∧ ∀ a ∈ as, K.address a = some a := by
  have hmap := map_eq_map_of_forall₂ h
  constructor
  · intro hp
    have hlen := hp.length_eq
    rw [List.length_append, h.length_eq] at hlen
    have hkept : kept = [] := List.length_eq_zero_iff.1 (by omega)
    rw [hkept, List.append_nil] at hp
    refine ⟨hkept, fun a ha => ?_⟩
    have hb : some a ∈ as.map K.address := by
      rw [hmap]
      exact List.mem_map_of_mem (hp.mem_iff.2 ha)
    obtain ⟨c, -, hc⟩ := List.mem_map.1 hb
    exact hidem c a hc
  · rintro ⟨rfl, hall⟩
    have hsome : as.map some = bs.map some := by
      rw [← hmap]
      exact (List.map_congr_left hall).symm
    rw [List.append_nil, (List.map_inj_right fun _ _ => Option.some.inj).1 hsome]

theorem forall_converted_iff {ips : List IPAddress} {P : RtIPAddr → Prop}
    (h : List.Forall₂ (fun ip a => rtIPAddrFrom cv ip = .ok a) ips as) :
    (∀ ip ∈ ips, ∀ a, rtIPAddrFrom cv ip = .ok a → P a) ↔ ∀ a ∈ as, P a := by
  induction h with
  | nil => exact iff_of_true nofun nofun
  | cons ha _ ih =>
    rw [List.forall_mem_cons, List.forall_mem_cons, ih, ha]
    simp

/-- When an update succeeds, the link is as requested exactly where no secondary address is
promoted, each address and the name are taken as they are, the MTU has 32 bits, and the last request
is accepted. -/
theorem updateInterface_asRequested_iff (K : LinkKernel) (cv : Converter)
    (scan : String → Outcome ErrorKind Bytes) (iface iface' : RequestedInterface) (s t : LinkSocket)
    (hidem : ∀ a b, K.address a = some b → K.address b = some b)
    (hk : ∀ ifinfo, findLinkByHwaddr scan K.links iface.hwAddr = .ok ifinfo →
      ifinfo.flags = s.link.flags ∧
        DumpsPrimaries ifinfo.index s.link.groups (K.dump s.link.groups))
    (h : RtnlHandle.updateInterface K cv scan iface s = (.ok iface', t)) :
    AsRequested cv iface t.link ↔ UpdatesLink K cv iface s := by
  obtain ⟨as, bs, kept, hkept, has, hbs, hperm, hname, hmtu, hup⟩ := updateInterface_ok hk h
  have hsec := foldlM_deleteAddr_kept hkept
  have hmtu' : t.link.mtu.toNat = iface.mtu.toNat ↔ iface.mtu.toNat < 2 ^ 32 := by
    rw [hmtu, UInt64.toNat_toUInt32]
    exact ⟨fun he => he ▸ Nat.mod_lt _ (by decide), Nat.mod_eq_of_lt⟩
  have haddr : (∃ as, List.Forall₂ (fun ip a => rtIPAddrFrom cv ip = .ok a) iface.IPAddresses as ∧
      (allAddresses t.link.groups).Perm as) ↔ allAddresses kept = [] ∧
        ∀ ip ∈ iface.IPAddresses, ∀ a, rtIPAddrFrom cv ip = .ok a → K.address a = some a := by
    rw [forall_converted_iff has, ← stored_perm_iff hidem hbs]
    constructor
    · rintro ⟨as', has', hp⟩
      have hsame := (map_eq_map_of_forall₂ has).symm.trans (map_eq_map_of_forall₂ has')
      rw [(List.map_inj_right fun _ _ => Outcome.ok.inj).1 hsame]
      exact hperm.symm.trans hp
    · intro hp
      exact ⟨as, has, hperm.trans hp⟩
  constructor
  · intro hreq
    obtain ⟨hnone, hall⟩ := haddr.1 hreq.addresses
    exact ⟨hsec.1 hnone, hall, hname.trans (congrArg some hreq.name), hmtu'.1 hreq.mtu,
      hup.1 hreq.up⟩
  · intro hu
    exact ⟨haddr.2 ⟨hsec.2 hu.secondaries, hu.addresses⟩,
      Option.some.inj (hname.symm.trans hu.name), hmtu'.2 hu.mtu, hup.2 hu.up⟩

/-- An address of the link 2, as the kernel dumps it. -/
def addressEntry (flags : UInt8) (a : RtIPAddr) : Bytes :=
  kernelMessage RTM_NEWADDR (IfAddrMsg.bytes ⟨a.ip_family, a.ip_mask, flags, 0, 2⟩)
    [(IFA_ADDRESS, a.addr), (IFA_LOCAL, a.addr)]

def addressDump (groups : List AddressGroup) : List Bytes :=
  (groups.map fun g => addressEntry 0 g.primary ::
    g.secondaries.map (addressEntry IFA_F_SECONDARY)).flatten

/-- The link 2, which is up. -/
def upLink : Bytes :=
  kernelMessage RTM_NEWLINK (IfInfoMsg.bytes ⟨0, 1, 2, IFF_UP, 0⟩) [(IFLA_ADDRESS, cardAddress)]

/-- It takes addresses of IPv4, and networks of whole bytes. -/
def ethKernel (promotes : Bool) : LinkKernel where
  refuses _ := none
  links := .ok [upLink]
  dump := addressDump
  promotes
  sameNetwork a b := a.ip_mask = b.ip_mask ∧
    a.addr.take (a.ip_mask.toNat / 8) = b.addr.take (b.ip_mask.toNat / 8)
  address a := if a.ip_family = AF_INET ∧ a.addr.length = 4 ∧ a.ip_mask ≤ 32 then some a else none
  name n := if 0 < n.length ∧ n.length < 16 then some n else none

/-- 10.0.0.n/24. -/
def hostAddress (n : UInt8) : RtIPAddr := ⟨AF_INET, 24, [10, 0, 0, n]⟩

/-- The link `eth0` with 10.0.0.1/24, and 10.0.0.2/24 that depends on it. -/
def ethLink : LinkState :=
  ⟨IFF_UP, [⟨hostAddress 1, [hostAddress 2]⟩], [101, 116, 104, 48], 1500⟩

def prefixConverter : Converter where
  linkIndex _ := .err (.nix ENODEV)
  cider _ := .err (.msg "match failed")
  mask s := if s = "24" then .ok 24 else .err (.msg "match failed")

/-- `eth1` with 10.0.0.9/24. -/
def ethInterface : RequestedInterface where
  name := [101, 116, 104, 49]
  mtu := 1400
  raw_flags := 0
  hwAddr := "0A:00:00:01:02:03"
  IPAddresses := [⟨.v4, "10.0.0.9", "24"⟩]

theorem ethKernel_idem {promotes : Bool} {a b : RtIPAddr}
    (h : (ethKernel promotes).address a = some b) : (ethKernel promotes).address b = some b := by
  have hb : a = b := by
    by_cases hc : a.ip_family = AF_INET ∧ a.addr.length = 4 ∧ a.ip_mask ≤ 32
    · exact Option.some.inj ((if_pos hc).symm.trans h)
    · cases (if_neg hc).symm.trans h
  rw [← hb, h, hb]

theorem ethLink_dumps {ifinfo : IfInfoMsg}
    (h : findLinkByHwaddr (fun _ => .ok cardAddress) (.ok [upLink]) ethInterface.hwAddr =
      .ok ifinfo) : ifinfo.flags = ethLink.flags ∧
        DumpsPrimaries ifinfo.index ethLink.groups (addressDump ethLink.groups) := by
  have hfind : findLinkByHwaddr (fun _ => .ok cardAddress) (.ok [upLink]) ethInterface.hwAddr =
      .ok ⟨0, 1, 2, IFF_UP, 0⟩ := by decide
  have hdump : addressDump ethLink.groups = [addressEntry 0 (hostAddress 1),
      addressEntry IFA_F_SECONDARY (hostAddress 2)] := rfl
  have hformed : ∀ nlh ∈ [addressEntry 0 (hostAddress 1),
      addressEntry IFA_F_SECONDARY (hostAddress 2)], Family.addr.Formed nlh := by decide
  have hown : ([addressEntry 0 (hostAddress 1), addressEntry IFA_F_SECONDARY (hostAddress 2)].filter
      Family.addr.reads).filter (ownPrimary 2) = [addressEntry 0 (hostAddress 1)] := by decide
  cases hfind.symm.trans h
  rw [hdump]
  refine ⟨rfl, fun nlh hm _ => hformed nlh hm, ?_⟩
  dsimp only
  rw [hown]
  exact .cons ⟨by decide, by decide, by decide, by decide⟩ .nil

/-- A kernel that drops secondary addresses. -/
theorem updateInterface_eth : AsRequested prefixConverter ethInterface
    ⟨IFF_UP, [⟨hostAddress 9, []⟩], [101, 116, 104, 49], 1400⟩ := by
  apply (updateInterface_asRequested_iff (ethKernel false) prefixConverter
    (fun _ => .ok cardAddress) ethInterface ethInterface ⟨ethLink, 0⟩
    ⟨⟨IFF_UP, [⟨hostAddress 9, []⟩], [101, 116, 104, 49], 1400⟩, 7⟩ (fun _ _ => ethKernel_idem)
    (fun _ => ethLink_dumps) (by decide +kernel)).2
  refine ⟨nofun, ?_, by decide, by decide, rfl⟩
  have hone : rtIPAddrFrom prefixConverter ⟨.v4, "10.0.0.9", "24"⟩ = .ok (hostAddress 9) := by
    decide
  intro ip hip a ha
  cases List.mem_singleton.1 hip
  cases hone.symm.trans ha
  decide

/-- One that promotes them keeps 10.0.0.2. -/
theorem updateInterface_kept : ¬ ∀ (K : LinkKernel) (cv : Converter)
    (scan : String → Outcome ErrorKind Bytes) (iface iface' : RequestedInterface)
    (s t : LinkSocket),
    (∀ a b, K.address a = some b → K.address b = some b) →
    (∀ ifinfo, findLinkByHwaddr scan K.links iface.hwAddr = .ok ifinfo →
      ifinfo.flags = s.link.flags ∧
        DumpsPrimaries ifinfo.index s.link.groups (K.dump s.link.groups)) →
    RtnlHandle.updateInterface K cv scan iface s = (.ok iface', t) →
    AsRequested cv iface t.link := by
  intro h
  have hreq := h (ethKernel true) prefixConverter (fun _ => .ok cardAddress) ethInterface
    ethInterface ⟨ethLink, 0⟩
    ⟨⟨IFF_UP, [⟨hostAddress 2, [hostAddress 9]⟩], [101, 116, 104, 49], 1400⟩, 7⟩
    (fun _ _ => ethKernel_idem) (fun _ => ethLink_dumps) (by decide +kernel)
  obtain ⟨as, has, hp⟩ := hreq.addresses
  exact absurd (has.length_eq.trans hp.length_eq.symm) (by decide)

end KataAgent
