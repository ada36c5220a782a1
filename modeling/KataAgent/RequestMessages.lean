import KataAgent.AttributeWrites

namespace KataAgent
open Records
set_option autoImplicit true

structure IfInfoMsg where
  family : UInt8
  type : UInt16
  index : UInt32
  flags : UInt32
  change : UInt32
  deriving DecidableEq

def IfInfoMsg.bytes (m : IfInfoMsg) : Bytes :=
  [m.family, 0] ++ leBytes 2 m.type.toNat ++ leBytes 4 m.index.toNat ++ leBytes 4 m.flags.toNat ++
    leBytes 4 m.change.toNat

structure IfAddrMsg where
  family : UInt8
  prefixlen : UInt8
  flags : UInt8
  scope : UInt8
  index : UInt32
  deriving DecidableEq

def IfAddrMsg.bytes (m : IfAddrMsg) : Bytes :=
  [m.family, m.prefixlen, m.flags, m.scope] ++ leBytes 4 m.index.toNat

structure RtMsg where
  family : UInt8
  dst_len : UInt8
  src_len : UInt8
  tos : UInt8
  table : UInt8
  protocol : UInt8
  scope : UInt8
  type : UInt8
  flags : UInt32
  deriving DecidableEq

def RtMsg.bytes (m : RtMsg) : Bytes :=
  [m.family, m.dst_len, m.src_len, m.tos, m.table, m.protocol, m.scope, m.type] ++
    leBytes 4 m.flags.toNat

/-- What follows the length of a message: its type, flags, sequence number and port, and the header
of its family. -/
def messageHead (type flags : UInt16) (seq : UInt32) (family : Bytes) : Bytes :=
  leBytes 2 type.toNat ++ leBytes 2 flags.toNat ++ leBytes 4 seq.toNat ++ leBytes 4 0 ++ family

def AF_INET : UInt8 := 2
def IFF_NOARP : UInt32 := 0x80
def NLM_F_REQUEST : UInt16 := 0x01
def NLM_F_EXCL : UInt16 := 0x200
def NLM_F_CREATE : UInt16 := 0x400
def RTEXT_FILTER_VF : UInt32 := 1
def RTEXT_FILTER_SKIP_STATS : UInt32 := 8
def IFLA_IFNAME : UInt16 := 3
def IFLA_MTU : UInt16 := 4
def IFLA_EXT_MASK : UInt16 := 29
def IFA_ADDRESS : UInt16 := 1
def IFA_LOCAL : UInt16 := 2
def RTA_DST : UInt16 := 1
def RTA_SRC : UInt16 := 2
def RTA_OIF : UInt16 := 4
def RTA_GATEWAY : UInt16 := 5
def RTA_PREFSRC : UInt16 := 7
def RT_TABLE_MAIN : UInt8 := 254
def RTPROTO_BOOT : UInt8 := 3
def RTN_UNICAST : UInt8 := 1

/-- The parts of an `Interface` that reach the message; strings are their bytes. -/
structure Interface where
  name : Bytes
  mtu : UInt64
  raw_flags : UInt32
  deriving DecidableEq

structure RtIPAddr where
  ip_family : UInt8
  ip_mask : UInt8
  addr : Bytes
  deriving DecidableEq

structure RtRoute where
  dest : Option Bytes
  source : Option Bytes
  gateway : Option Bytes
  index : UInt32
  scope : UInt8
  dst_len : UInt8
  src_len : UInt8
  deriving DecidableEq

/-- A message in writing: what stands before its attributes, and the calls of the writers. -/
structure Script where
  head : Bytes
  attrs : List Attr

def findLinkByName (seq : UInt32) (name : Bytes) : Script where
  head := messageHead 18 NLM_F_REQUEST seq (IfInfoMsg.bytes ⟨0, 0, 0, 0, 0⟩)
  attrs := [.var IFLA_IFNAME name (name.length + 1),
    .u32 IFLA_EXT_MASK (RTEXT_FILTER_VF ||| RTEXT_FILTER_SKIP_STATS)]

def updateInterface (seq : UInt32) (ifinfo : IfInfoMsg) (iface : Interface) : Script where
  head :=
    let noarp := if iface.raw_flags &&& IFF_NOARP ≠ 0 then IFF_NOARP else 0
    messageHead 16 NLM_F_REQUEST seq
      (IfInfoMsg.bytes ⟨ifinfo.family, ifinfo.type, ifinfo.index, noarp, noarp⟩)
  attrs := [.u32 IFLA_MTU iface.mtu.toUInt32, .var IFLA_IFNAME iface.name iface.name.length]

def addOneAddress (seq : UInt32) (ifinfo : IfInfoMsg) (ip : RtIPAddr) : Script where
  head := messageHead 20 (NLM_F_REQUEST ||| NLM_F_CREATE ||| NLM_F_EXCL) seq
    (IfAddrMsg.bytes ⟨ip.ip_family, ip.ip_mask, 0, 0, ifinfo.index⟩)
  attrs := [.var IFA_ADDRESS ip.addr ip.addr.length, .var IFA_LOCAL ip.addr ip.addr.length]

def deleteOneAddr (seq : UInt32) (ifinfo : IfInfoMsg) (addr : RtIPAddr) : Script where
  head := messageHead 21 NLM_F_REQUEST seq
    (IfAddrMsg.bytes ⟨addr.ip_family, addr.ip_mask, 0, 0, ifinfo.index⟩)
  attrs := [.var IFA_ADDRESS addr.addr addr.addr.length]

/-- The attribute of an address that may be missing. -/
def optionAttr (cat : UInt16) (addr : Option Bytes) : List Attr :=
  match addr with
  | none => []
  | some addr => [.var cat addr addr.length]

/-- The attributes of a route, in both of its messages. -/
def RtRoute.attrs (r : RtRoute) : List Attr :=
  optionAttr (if 0 < r.src_len then RTA_SRC else RTA_PREFSRC) r.source ++
    optionAttr RTA_DST r.dest ++ optionAttr RTA_GATEWAY r.gateway ++ [.u32 RTA_OIF r.index]

def addOneRoute (seq : UInt32) (r : RtRoute) : Script where
  head := messageHead 24 (NLM_F_REQUEST ||| NLM_F_CREATE ||| NLM_F_EXCL) seq (RtMsg.bytes
    ⟨AF_INET, r.dst_len, r.src_len, 0, RT_TABLE_MAIN, RTPROTO_BOOT, r.scope, RTN_UNICAST, 0⟩)
  attrs := r.attrs

def deleteOneRoute (seq : UInt32) (r : RtRoute) : Script where
  head := messageHead 25 NLM_F_REQUEST seq
    (RtMsg.bytes ⟨AF_INET, r.dst_len, r.src_len, 0, RT_TABLE_MAIN, 0, r.scope, 0, 0⟩)
  attrs := r.attrs

/-- A call that builds a message. -/
inductive Builder where
  | findLinkByName (name : Bytes)
  | updateInterface (ifinfo : IfInfoMsg) (iface : Interface)
  | addOneAddress (ifinfo : IfInfoMsg) (ip : RtIPAddr)
  | deleteOneAddr (ifinfo : IfInfoMsg) (addr : RtIPAddr)
  | addOneRoute (r : RtRoute)
  | deleteOneRoute (r : RtRoute)

def Builder.script (seq : UInt32) : Builder → Script
  | .findLinkByName name => KataAgent.findLinkByName seq name
  | .updateInterface ifinfo iface => KataAgent.updateInterface seq ifinfo iface
  | .addOneAddress ifinfo ip => KataAgent.addOneAddress seq ifinfo ip
  | .deleteOneAddr ifinfo addr => KataAgent.deleteOneAddr seq ifinfo addr
  | .addOneRoute r => KataAgent.addOneRoute seq r
  | .deleteOneRoute r => KataAgent.deleteOneRoute seq r

/-- The message in its buffer. There is none when a writer leaves the buffer or what it may read. -/
def Script.message (s : Script) : Option Bytes := s.attrs.foldlM addattr (draft s.head [])

/-- The message is built inside its buffer and from what belongs to its sources, and the 16-bit
length of each attribute is its length. -/
structure Script.Safe (s : Script) : Prop where
  built : s.message.isSome
  lengths : ∀ a ∈ s.attrs, rtaLength a.len % 2 ^ 16 = align (a.len + 4)

/-- The room that the address of a route takes. -/
def addrRoom (addr : Option Bytes) : Nat := addr.elim 0 fun a => align (a.length + 4)

/-- The data of the call are small enough, and the writers may read them. -/
def Builder.Fits : Builder → Prop
  | .findLinkByName _ => False
  | .updateInterface _ iface => iface.name.length ≤ 2004
  | .addOneAddress _ ip => ip.addr.length ≤ 1008
  | .deleteOneAddr _ addr => addr.addr.length ≤ 2020
  | .addOneRoute r | .deleteOneRoute r =>
    addrRoom r.source + addrRoom r.dest + addrRoom r.gateway ≤ 2012

theorem length_messageHead {type flags : UInt16} {seq : UInt32} {family : Bytes} :
    (messageHead type flags seq family).length = 12 + family.length := by
  simp only [messageHead, List.length_append, length_leBytes]

/-- A message is safe exactly when its attributes are owned and have the room. -/
theorem Script.safe_iff {s : Script} (hh : (4 + s.head.length) % 4 = 0)
    (hle : 4 + s.head.length ≤ bufferSize) :
    s.Safe ↔ (∀ a ∈ s.attrs, a.Owned) ∧ 4 + s.head.length + room s.attrs ≤ bufferSize := by
  have hm := foldlM_addattr_draft [] s.attrs hh rfl hle
  rw [List.length_nil, Nat.add_zero] at hm
  constructor
  · intro h
    have hb := h.built
    rw [Script.message, hm] at hb
    by_contra hc
    rw [if_neg hc] at hb
    cases hb
  · intro h
    refine ⟨?_, fun a ha => rtaLength_eq ?_⟩
    · rw [Script.message, hm, if_pos h]
      rfl
    · have hr := le_room ha
      omega

theorem room_append (as bs : List Attr) : room (as ++ bs) = room as + room bs := by
  simp [room]

theorem room_optionAttr (cat : UInt16) (addr : Option Bytes) :
    room (optionAttr cat addr) = addrRoom addr := by
  cases addr with
  | none => rfl
  | some addr => exact Nat.add_zero _

theorem owned_optionAttr {cat : UInt16} {addr : Option Bytes} :
    ∀ a ∈ optionAttr cat addr, a.Owned := by
  cases addr with
  | none => exact nofun
  | some addr =>
    intro a ha
    cases List.mem_singleton.1 ha
    exact Nat.le_refl addr.length

theorem RtRoute.owned (r : RtRoute) : ∀ a ∈ r.attrs, a.Owned := by
  intro a ha
  simp only [RtRoute.attrs, List.mem_append, List.mem_singleton] at ha
  rcases ha with ((hs | hd) | hg) | rfl
  · exact owned_optionAttr a hs
  · exact owned_optionAttr a hd
  · exact owned_optionAttr a hg
  · trivial

theorem RtRoute.room_attrs (r : RtRoute) :
    room r.attrs = addrRoom r.source + addrRoom r.dest + addrRoom r.gateway + 8 := by
  rw [RtRoute.attrs, room_append, room_append, room_append, room_optionAttr, room_optionAttr,
    room_optionAttr, room_u32, room_nil]

theorem align_le_iff {n m : Nat} (hm : m % 4 = 0) : align n ≤ m ↔ n ≤ m := by
  rw [align]
  omega

theorem IfInfoMsg.length_bytes (m : IfInfoMsg) : m.bytes.length = 16 := by
  simp only [IfInfoMsg.bytes, List.length_append, length_leBytes, List.length_cons, List.length_nil]

theorem IfAddrMsg.length_bytes (m : IfAddrMsg) : m.bytes.length = 8 := by
  simp only [IfAddrMsg.bytes, List.length_append, length_leBytes, List.length_cons, List.length_nil]

theorem RtMsg.length_bytes (m : RtMsg) : m.bytes.length = 12 := by
  simp only [RtMsg.bytes, List.length_append, length_leBytes, List.length_cons, List.length_nil]

theorem findLinkByName_not_safe (seq : UInt32) (name : Bytes) :
    ¬ (findLinkByName seq name).Safe := by
  have hl : (findLinkByName seq name).head.length = 28 := by
    rw [findLinkByName, length_messageHead, IfInfoMsg.length_bytes]
  rw [Script.safe_iff (by rw [hl]) (by rw [hl]; decide)]
  intro h
  exact absurd (h.1 _ List.mem_cons_self) (Nat.not_succ_le_self _)

theorem updateInterface_safe_iff (seq : UInt32) (ifinfo : IfInfoMsg) (iface : Interface) :
    (updateInterface seq ifinfo iface).Safe ↔ iface.name.length ≤ 2004 := by
  have hl : (updateInterface seq ifinfo iface).head.length = 28 := by
    rw [updateInterface, length_messageHead, IfInfoMsg.length_bytes]
  have ho : ∀ a ∈ (updateInterface seq ifinfo iface).attrs, a.Owned := by
    simp [updateInterface, Attr.Owned]
  have hr : room (updateInterface seq ifinfo iface).attrs = 8 + align (iface.name.length + 4) := by
    rw [updateInterface, room_u32, room_var, room_nil, Nat.add_zero]
  have ha := align_le_iff (n := iface.name.length + 4) (m := 2008) rfl
  rw [Script.safe_iff (by rw [hl]) (by rw [hl]; decide), and_iff_right ho, hl, hr]
  change 4 + 28 + (8 + _) ≤ 2048 ↔ _
  omega

theorem addOneAddress_safe_iff (seq : UInt32) (ifinfo : IfInfoMsg) (ip : RtIPAddr) :
    (addOneAddress seq ifinfo ip).Safe ↔ ip.addr.length ≤ 1008 := by
  have hl : (addOneAddress seq ifinfo ip).head.length = 20 := by
    rw [addOneAddress, length_messageHead, IfAddrMsg.length_bytes]
  have ho : ∀ a ∈ (addOneAddress seq ifinfo ip).attrs, a.Owned := by
    simp [addOneAddress, Attr.Owned]
  have hr : room (addOneAddress seq ifinfo ip).attrs =
      align (ip.addr.length + 4) + align (ip.addr.length + 4) := by
    rw [addOneAddress, room_var, room_var, room_nil]
    rfl
  have ha := align_le_iff (n := ip.addr.length + 4) (m := 1012) rfl
  rw [Script.safe_iff (by rw [hl]) (by rw [hl]; decide), and_iff_right ho, hl, hr]
  change 4 + 20 + _ ≤ 2048 ↔ _
  omega

theorem deleteOneAddr_safe_iff (seq : UInt32) (ifinfo : IfInfoMsg) (addr : RtIPAddr) :
    (deleteOneAddr seq ifinfo addr).Safe ↔ addr.addr.length ≤ 2020 := by
  have hl : (deleteOneAddr seq ifinfo addr).head.length = 20 := by
    rw [deleteOneAddr, length_messageHead, IfAddrMsg.length_bytes]
  have ho : ∀ a ∈ (deleteOneAddr seq ifinfo addr).attrs, a.Owned := by
    simp [deleteOneAddr, Attr.Owned]
  have hr : room (deleteOneAddr seq ifinfo addr).attrs = align (addr.addr.length + 4) := by
    rw [deleteOneAddr, room_var, room_nil, Nat.add_zero]
  have ha := align_le_iff (n := addr.addr.length + 4) (m := 2024) rfl
  rw [Script.safe_iff (by rw [hl]) (by rw [hl]; decide), and_iff_right ho, hl, hr]
  change 4 + 20 + _ ≤ 2048 ↔ _
  omega

/-- Both messages of a route have a head of the same length. -/
theorem route_safe_iff {s : Script} {r : RtRoute} (hl : s.head.length = 24)
    (ha : s.attrs = r.attrs) :
    s.Safe ↔ addrRoom r.source + addrRoom r.dest + addrRoom r.gateway ≤ 2012 := by
  rw [Script.safe_iff (by rw [hl]) (by rw [hl]; decide), ha, and_iff_right r.owned, hl,
    r.room_attrs]
  change 4 + 24 + (_ + 8) ≤ 2048 ↔ _
  omega

/-- The messages of `find_link_by_name` are never safe, since it lets a byte behind the name be
read; the others are safe exactly where the data of the call are short enough. -/
theorem builder_safe_iff (seq : UInt32) (b : Builder) : (b.script seq).Safe ↔ b.Fits := by
  cases b with
  | findLinkByName name => exact iff_of_false (findLinkByName_not_safe seq name) id
  | updateInterface ifinfo iface => exact updateInterface_safe_iff seq ifinfo iface
  | addOneAddress ifinfo ip => exact addOneAddress_safe_iff seq ifinfo ip
  | deleteOneAddr ifinfo addr => exact deleteOneAddr_safe_iff seq ifinfo addr
  | addOneRoute r =>
    refine route_safe_iff ?_ rfl
    change (messageHead _ _ _ _).length = 24
    rw [length_messageHead, RtMsg.length_bytes]
  | deleteOneRoute r =>
    refine route_safe_iff ?_ rfl
    change (messageHead _ _ _ _).length = 24
    rw [length_messageHead, RtMsg.length_bytes]

/-- The name `eth0` is read with the byte behind it. -/
theorem builder_not_safe : ¬ ∀ (seq : UInt32) (b : Builder), (b.script seq).Safe := by
  intro h
  exact findLinkByName_not_safe 1 [101, 116, 104, 48] (h 1 (.findLinkByName [101, 116, 104, 48]))

end KataAgent
