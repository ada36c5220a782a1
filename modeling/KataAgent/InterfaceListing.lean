import KataAgent.LinkLookup
import KataAgent.HardwareAddress

namespace KataAgent
open Fallible Records
set_option autoImplicit true

variable {ipv6 : Bytes → String} {link alh : Bytes} {lv av : List Bytes}

def utf8Bytes (s : String) : Bytes := s.toByteArray.data.toList

/-- `String::from_utf8`. -/
def fromUtf8 (b : Bytes) : Outcome ErrorKind String :=
  .ofOption (.utf8 b) (String.fromUTF8? ⟨b.toArray⟩)

def IFA_MAX : Nat := 9

def AF_INET6 : UInt8 := 10

inductive IPFamily where
  | v4
  | v6
  deriving DecidableEq, Repr

/-- The `IPAddress` message of `types.proto`. -/
structure IPAddress where
  family : IPFamily
  address : String
  mask : String
  deriving DecidableEq, Repr

/-- The fields of an `Interface` that `list_interfaces` fills. -/
structure ListedInterface where
  name : String
  mtu : UInt64
  hwAddr : String
  IPAddresses : List IPAddress
  deriving DecidableEq, Repr

/-- The `struct ifaddrmsg` of a message. -/
def ifAddrMsg (nlh : Bytes) : IfAddrMsg where
  family := UInt8.ofNat (field nlh 16 1)
  prefixlen := UInt8.ofNat (field nlh 17 1)
  flags := UInt8.ofNat (field nlh 18 1)
  scope := UInt8.ofNat (field nlh 19 1)
  index := UInt32.ofNat (field nlh 20 4)

/-- `format_address` of what `RTA_DATA` and `RTA_PAYLOAD` give. -/
def formatAttr (ipv6 : Bytes → String) (rta : Bytes) : Outcome ErrorKind String := do
  let alen ← .ofUnwrap (rtaPayload rta)
  formatAddress ipv6 ((rta.drop 4).take alen)

/-- The body of the loop over the addresses. Without either attribute a null pointer is read. -/
def listAddress (ipv6 : Bytes → String) (alh : Bytes) : Outcome ErrorKind IPAddress := do
  let addrs ← Family.addr.parse (IFA_MAX + 1) alh
  let tattr ← .ofUnwrap ((attrAt addrs IFA_ADDRESS).or (attrAt addrs IFA_LOCAL))
  let address ← formatAttr ipv6 tattr
  .ok ⟨if (ifAddrMsg alh).family = AF_INET6 then .v6 else .v4, address,
    toString (ifAddrMsg alh).prefixlen.toNat⟩

def listName : Option Bytes → Outcome ErrorKind String
  | none => .ok ""
  | some t => do
    let b ← .ofUnwrap (getattrVar t)
    fromUtf8 b

def listMtu : Option Bytes → Outcome ErrorKind UInt64
  | none => .ok 0
  | some t => do
    let mtu ← .ofUnwrap (getattr32 t)
    .ok mtu.toUInt64

def listHwAddr (ipv6 : Bytes → String) : Option Bytes → Outcome ErrorKind String
  | none => .ok ""
  | some t => formatAttr ipv6 t

/-- The body of the loop over the links. -/
def listInterface (ipv6 : Bytes → String) (av : List Bytes) (link : Bytes) :
    Outcome ErrorKind ListedInterface := do
  let attrs ← Family.link.parse (IFLA_MAX + 1) link
  let name ← listName (attrAt attrs IFLA_IFNAME)
  let mtu ← listMtu (attrAt attrs IFLA_MTU)
  let hwAddr ← listHwAddr ipv6 (attrAt attrs IFLA_ADDRESS)
  let ads ← ((Family.addr.messages av).filter fun alh =>
    (ifAddrMsg alh).index = (ifInfoMsg link).index).mapM (listAddress ipv6)
  .ok ⟨name, mtu, hwAddr, ads⟩

def listInterfaces (ipv6 : Bytes → String) (links addresses : Outcome ErrorKind (List Bytes)) :
    Outcome ErrorKind (List ListedInterface) := do
  let lv ← links
  let av ← addresses
  (Family.link.messages lv).mapM (listInterface ipv6 av)

/-- The payload that an address message is listed by. -/
def listedAddress (alh : Bytes) : Option Bytes :=
  (Family.addr.payload alh IFA_ADDRESS).or (Family.addr.payload alh IFA_LOCAL)

/-- The address messages of a link. -/
def addressesOf (av : List Bytes) (link : Bytes) : List Bytes :=
  (av.filter Family.addr.reads).filter fun alh => (ifAddrMsg alh).index = (ifInfoMsg link).index

/-- An entry for an address, as far as the address can be printed. -/
structure ListsAddress (ipv6 : Bytes → String) (alh : Bytes) (one : IPAddress) : Prop where
  family : one.family = if (ifAddrMsg alh).family = AF_INET6 then .v6 else .v4
  mask : one.mask = toString (ifAddrMsg alh).prefixlen.toNat
  address : ∀ a ∈ listedAddress alh, ∀ text, formatAddress ipv6 a = .ok text → one.address = text

/-- An entry for a link, with its name up to the NUL. -/
structure ListsLink (ipv6 : Bytes → String) (av : List Bytes) (link : Bytes)
    (iface : ListedInterface) : Prop where
  name : utf8Bytes iface.name = ((Family.link.payload link IFLA_IFNAME).getD []).dropLast
  addresses : List.Forall₂ (ListsAddress ipv6) (addressesOf av link) iface.IPAddresses

/-- The dumps are listed link by link. -/
def ListsDumps (ipv6 : Bytes → String) (lv av : List Bytes) : Prop :=
  ∃ ifaces, listInterfaces ipv6 (.ok lv) (.ok av) = .ok ifaces ∧
    List.Forall₂ (ListsLink ipv6 av) (lv.filter Family.link.reads) ifaces

/-- `format_address` knows the length. -/
def Printable (a : Bytes) : Prop := a.length = 4 ∨ a.length = 6 ∨ a.length = 16

instance : Decidable (Printable a) := inferInstanceAs (Decidable (_ ∨ _ ∨ _))

/-- The link has no name, and nothing about it or its addresses is unusual. -/
structure PlainLink (av : List Bytes) (link : Bytes) : Prop where
  unnamed : Family.link.payload link IFLA_IFNAME = none
  mtu : ∀ p ∈ Family.link.payload link IFLA_MTU, p.length = 4
  hwAddr : ∀ p ∈ Family.link.payload link IFLA_ADDRESS, Printable p
  addresses : ∀ alh ∈ addressesOf av link, ∃ a ∈ listedAddress alh, Printable a

theorem fromUtf8_eq_ok {b : Bytes} {s : String} : fromUtf8 b = .ok s ↔ utf8Bytes s = b := by
  unfold fromUtf8 String.fromUTF8? utf8Bytes
  constructor
  · intro h
    split at h
    · cases h
      rfl
    · cases h
  · rintro rfl
    have hs : (⟨s.toByteArray.data.toList.toArray⟩ : ByteArray) = s.toByteArray := by simp
    rw [dif_pos (by rw [hs]; exact s.isValidUTF8)]
    exact congrArg Outcome.ok (String.toByteArray_inj.1 hs)

theorem formatAddress_ok_iff (ipv6 : Bytes → String) {a : Bytes} :
    (∃ text, formatAddress ipv6 a = .ok text) ↔ Printable a := by
  unfold formatAddress Printable
  by_cases h4 : a.length = 4
  · simp [h4]
  · by_cases h6 : a.length = 6
    · simp [h6]
    · by_cases h16 : a.length = 16
      · simp [h16]
      · simp [h4, h6, h16]

theorem formatAttr_eq {f : Family} {nlh rta : Bytes} {cat : UInt16}
    (h : f.attr nlh cat = some rta) : formatAttr ipv6 rta = formatAddress ipv6 (rta.drop 4) := by
  rw [formatAttr, Family.rtaPayload_attr h]
  change formatAddress ipv6 ((rta.drop 4).take (rta.length - 4)) = _
  rw [List.take_of_length_le (by rw [List.length_drop])]

theorem listName_eq_ok {name : String} :
    listName (Family.link.attr link IFLA_IFNAME) = .ok name ↔
      utf8Bytes name = (Family.link.payload link IFLA_IFNAME).getD [] := by
  rw [Family.payload]
  cases h : Family.link.attr link IFLA_IFNAME with
  | none =>
    change Outcome.ok "" = .ok name ↔ utf8Bytes name = utf8Bytes ""
    rw [← fromUtf8_eq_ok, fromUtf8_eq_ok.2 rfl]
  | some t =>
    rw [listName, Family.getattrVar_attr h]
    exact fromUtf8_eq_ok

theorem listMtu_ok_iff : (∃ mtu, listMtu (Family.link.attr link IFLA_MTU) = .ok mtu) ↔
    ∀ p ∈ Family.link.payload link IFLA_MTU, p.length = 4 := by
  rw [Family.payload]
  cases h : Family.link.attr link IFLA_MTU with
  | none =>
    apply iff_of_true ⟨0, rfl⟩
    intro p hp
    cases hp
  | some t =>
    rw [listMtu, Family.getattr32_attr h]
    by_cases h4 : (t.drop 4).length = 4
    · rw [if_pos h4]
      apply iff_of_true ⟨_, rfl⟩
      intro p hp
      cases hp
      exact h4
    · rw [if_neg h4]
      apply iff_of_false
      · rintro ⟨_, he⟩
        cases he
      · intro hp
        exact h4 (hp _ rfl)

theorem listHwAddr_ok_iff (ipv6 : Bytes → String) :
    (∃ hwAddr, listHwAddr ipv6 (Family.link.attr link IFLA_ADDRESS) = .ok hwAddr) ↔
      ∀ p ∈ Family.link.payload link IFLA_ADDRESS, Printable p := by
  rw [Family.payload]
  cases h : Family.link.attr link IFLA_ADDRESS with
  | none =>
    apply iff_of_true ⟨"", rfl⟩
    intro p hp
    cases hp
  | some t =>
    rw [listHwAddr, formatAttr_eq h, formatAddress_ok_iff]
    simp

/-- An address is listed where one of its attributes can be printed. -/
theorem listAddress_iff (h : Family.addr.Formed alh) :
    (∃ one, listAddress ipv6 alh = .ok one ∧ ListsAddress ipv6 alh one) ↔
      ∃ a ∈ listedAddress alh, Printable a := by
  obtain ⟨addrs, ha, hat⟩ := h.parse (IFA_MAX + 1)
  have hlisted : listedAddress alh =
      ((attrAt addrs IFA_ADDRESS).or (attrAt addrs IFA_LOCAL)).map (List.drop 4) := by
    rw [hat IFA_ADDRESS (by decide), hat IFA_LOCAL (by decide), Option.map_or]
    rfl
  rw [listAddress, ha, Outcome.ok_bind]
  cases ht : (attrAt addrs IFA_ADDRESS).or (attrAt addrs IFA_LOCAL) with
  | none =>
    rw [hlisted, ht]
    exact iff_of_false (fun ⟨_, he, _⟩ => nomatch he) nofun
  | some t =>
    rw [ht, Option.map_some] at hlisted
    have hf : formatAttr ipv6 t = formatAddress ipv6 (t.drop 4) := by
      rw [hat IFA_ADDRESS (by decide), hat IFA_LOCAL (by decide)] at ht
      rcases Option.or_eq_some_iff.1 ht with h | ⟨-, h⟩
      · exact formatAttr_eq h
      · exact formatAttr_eq h
    have hex : (∃ a ∈ listedAddress alh, Printable a) ↔ Printable (t.drop 4) := by simp [hlisted]
    rw [hex, ← formatAddress_ok_iff ipv6]
    constructor
    · rintro ⟨one, ho, -⟩
      obtain ⟨text, htext, -⟩ := (Outcome.bind_eq_ok (x := formatAttr ipv6 t)).1 ho
      exact ⟨text, hf ▸ htext⟩
    · rintro ⟨text, htext⟩
      refine ⟨_, (Outcome.bind_eq_ok (x := formatAttr ipv6 t)).2 ⟨text, hf.trans htext, rfl⟩, rfl,
        rfl, fun a hm text' ht' => ?_⟩
      rw [hlisted] at hm
      cases hm
      exact Outcome.ok.inj (htext.symm.trans ht')

theorem listInterface_eq_ok {iface : ListedInterface} (hl : Family.link.Formed link)
    (ha : Family.addr.FormedDump av) : listInterface ipv6 av link = .ok iface ↔
      listName (Family.link.attr link IFLA_IFNAME) = .ok iface.name ∧
      listMtu (Family.link.attr link IFLA_MTU) = .ok iface.mtu ∧
      listHwAddr ipv6 (Family.link.attr link IFLA_ADDRESS) = .ok iface.hwAddr ∧
      (addressesOf av link).mapM (listAddress ipv6) = .ok iface.IPAddresses := by
  obtain ⟨attrs, hp, hat⟩ := hl.parse (IFLA_MAX + 1)
  rw [listInterface, hp, Family.messages_eq ha]
  simp only [Outcome.ok_bind, hat IFLA_IFNAME (by decide), hat IFLA_MTU (by decide),
    hat IFLA_ADDRESS (by decide)]
  constructor
  · intro h
    obtain ⟨name, hn, h⟩ := Outcome.bind_eq_ok.1 h
    obtain ⟨mtu, hm, h⟩ := Outcome.bind_eq_ok.1 h
    obtain ⟨hwAddr, hw, h⟩ := Outcome.bind_eq_ok.1 h
    obtain ⟨ads, hs, h⟩ := Outcome.bind_eq_ok.1 h
    cases h
    exact ⟨hn, hm, hw, hs⟩
  · rintro ⟨hn, hm, hw, hs⟩
    rw [hn, hm, hw, Outcome.ok_bind, Outcome.ok_bind, Outcome.ok_bind]
    exact Outcome.bind_eq_ok.2 ⟨_, hs, rfl⟩

/-- The addresses of a link are listed where each of them is. -/
theorem listAddresses_iff (ipv6 : Bytes → String) (ha : Family.addr.FormedDump av) :
    (∃ ads, (addressesOf av link).mapM (listAddress ipv6) = .ok ads ∧
      List.Forall₂ (ListsAddress ipv6) (addressesOf av link) ads) ↔
      ∀ alh ∈ addressesOf av link, ∃ a ∈ listedAddress alh, Printable a := by
  rw [Outcome.mapM_forall₂_iff]
  refine forall_congr' fun alh => forall_congr' fun hm => listAddress_iff ?_
  obtain ⟨hm, -⟩ := List.mem_filter.1 hm
  exact ha alh (List.mem_filter.1 hm).1 (List.mem_filter.1 hm).2

/-- A name that ends in a NUL is not its own text without the NUL. -/
theorem unnamed_of_eq_dropLast {name : Option Bytes} (hz : ∀ p ∈ name, p.getLast? = some 0)
    (h : name.getD [] = (name.getD []).dropLast) : name = none := by
  cases name with
  | none => rfl
  | some p =>
    have hlen := congrArg List.length h
    have hlast := hz p rfl
    cases p with
    | nil => cases hlast
    | cons b p =>
      rw [Option.getD_some, List.length_dropLast, List.length_cons] at hlen
      omega

theorem listInterface_iff (hl : Family.link.Formed link) (ha : Family.addr.FormedDump av)
    (hz : ∀ p ∈ Family.link.payload link IFLA_IFNAME, p.getLast? = some 0) :
    (∃ iface, listInterface ipv6 av link = .ok iface ∧ ListsLink ipv6 av link iface) ↔
      PlainLink av link := by
  constructor
  · rintro ⟨iface, hi, hlists⟩
    obtain ⟨hn, hm, hw, hs⟩ := (listInterface_eq_ok hl ha).1 hi
    exact {
      unnamed := unnamed_of_eq_dropLast hz ((listName_eq_ok.1 hn).symm.trans hlists.name)
      mtu := listMtu_ok_iff.1 ⟨_, hm⟩
      hwAddr := (listHwAddr_ok_iff ipv6).1 ⟨_, hw⟩
      addresses := (listAddresses_iff ipv6 ha).1 ⟨_, hs, hlists.addresses⟩ }
  · intro h
    obtain ⟨mtu, hm⟩ := listMtu_ok_iff.2 h.mtu
    obtain ⟨hwAddr, hw⟩ := (listHwAddr_ok_iff ipv6).2 h.hwAddr
    obtain ⟨ads, hs, hads⟩ := (listAddresses_iff ipv6 ha).2 h.addresses
    have hname : utf8Bytes "" = (Family.link.payload link IFLA_IFNAME).getD [] := by
      rw [h.unnamed]
      decide
    refine ⟨⟨"", mtu, hwAddr, ads⟩, ?_, ?_, hads⟩
    · exact (listInterface_eq_ok hl ha).2 ⟨listName_eq_ok.2 hname, hm, hw, hs⟩
    · rw [hname, h.unnamed]
      rfl

/-- The dumps are listed as they should be exactly where no link has a name, and each length of a
hardware address, an MTU or an address is one that can be printed. -/
theorem listInterfaces_iff (ipv6 : Bytes → String) (lv av : List Bytes)
    (hl : Family.link.FormedDump lv) (ha : Family.addr.FormedDump av)
    (hz : ∀ link ∈ lv, Family.link.reads link = true →
      ∀ p ∈ Family.link.payload link IFLA_IFNAME, p.getLast? = some 0) :
    ListsDumps ipv6 lv av ↔ ∀ link ∈ lv, Family.link.reads link = true → PlainLink av link := by
  have heq : listInterfaces ipv6 (.ok lv) (.ok av) =
      (lv.filter Family.link.reads).mapM (listInterface ipv6 av) := by
    rw [← Family.messages_eq hl]
    rfl
  rw [ListsDumps, heq, Outcome.mapM_forall₂_iff]
  constructor
  · intro h link hm hr
    exact (listInterface_iff (hl link hm hr) ha (hz link hm hr)).1
      (h link (List.mem_filter.2 ⟨hm, hr⟩))
  · intro h link hm
    obtain ⟨hm, hr⟩ := List.mem_filter.1 hm
    exact (listInterface_iff (hl link hm hr) ha (hz link hm hr)).2 (h link hm hr)

/-- An address of a link, as the kernel dumps it. -/
def addressMessage (index : UInt32) (address : Bytes) : Bytes :=
  kernelMessage RTM_NEWADDR (IfAddrMsg.bytes ⟨AF_INET, 24, 0, 0, index⟩) [(IFA_ADDRESS, address)]

theorem listInterfaces_nameless : ListsDumps (fun _ => "") [linkMessage 2 cardAddress]
    [addressMessage 1 [127, 0, 0, 1], addressMessage 2 [10, 0, 0, 7]] :=
  (listInterfaces_iff _ _ _ (by decide) (by decide) (by decide)).2 fun link hm _ => by
    cases List.mem_singleton.1 hm
    exact ⟨by decide, by decide, by decide, by decide⟩

/-- A link with its name, as the kernel dumps it. -/
def namedLink (index : UInt32) (name : Bytes) : Bytes :=
  kernelMessage RTM_NEWLINK (IfInfoMsg.bytes ⟨0, 1, index, 0, 0⟩) [(IFLA_IFNAME, name ++ [0])]

/-- The name `lo` is listed with its NUL. -/
theorem listInterfaces_ne : ¬ ∀ (ipv6 : Bytes → String) (lv av : List Bytes),
    Family.link.FormedDump lv → Family.addr.FormedDump av →
    (∀ link ∈ lv, Family.link.reads link = true →
      ∀ p ∈ Family.link.payload link IFLA_IFNAME, p.getLast? = some 0) → ListsDumps ipv6 lv av := by
  intro h
  obtain ⟨ifaces, hi, hf⟩ := h (fun _ => "") [namedLink 1 [108, 111]] [] (by decide) (by decide)
    (by decide)
  have he : listInterfaces (fun _ => "") (.ok [namedLink 1 [108, 111]]) (.ok []) =
      .ok [⟨"lo\x00", 0, "", []⟩] := by decide
  cases he.symm.trans hi
  have hn := (List.forall₂_cons.1 hf).1.name
  exact absurd hn (by decide)

end KataAgent
