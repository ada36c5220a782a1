import KataAgent.RouteConversion

namespace KataAgent
open Fallible Records IpText
set_option autoImplicit true

variable {cv : Converter} {s : Script}

/-- The length of an address of a family. -/
def familyLength (family : UInt8) : Nat := if family = AF_INET then 4 else 16

/-- The attribute is an address. The numbers are written by other writers. -/
def Attr.isAddress : Attr → Bool
  | .var _ _ _ => true
  | _ => false

/-- The family in the header. -/
def Script.family (s : Script) : UInt8 := s.head.getD 12 0

/-- Each address has the length of the family, and the prefix lengths, which stand in the header at
the given places, are at most its number of bits. -/
structure Script.Consistent (s : Script) (prefixes : List Nat) : Prop where
  addresses : ∀ a ∈ s.attrs, a.isAddress = true → a.len = familyLength s.family
  lengths : ∀ i ∈ prefixes, (s.head.getD i 0).toNat ≤ 8 * familyLength s.family

/-- The text is of the family, and the mask has at most its number of bits. -/
structure IPAddress.Fits (cv : Converter) (ipi : IPAddress) : Prop where
  family : ipi.family = .v4 ↔ ipv6FromStr ipi.address = none
  mask : ∀ m, cv.mask ipi.mask = .ok m → m.toNat ≤ if ipi.family = .v4 then 32 else 128

/-- The word and the number that `parse_cider` is given. -/
def ciderParts (cv : Converter) (text : String) : Outcome ErrorKind (String × UInt8) :=
  if contains text "/" then cv.cider text else .ok (text, 0)

/-- The address in the text is not of IPv6, and its mask has at most 32 bits. -/
def Ipv4Cider (cv : Converter) (text : String) : Prop :=
  ∀ p, ciderParts cv text = .ok p → ipv6FromStr p.1 = none ∧ p.2.toNat ≤ 32

/-- What the route says in text is IPv4. -/
structure Route.Fits (cv : Converter) (r : Route) : Prop where
  dest : r.dest = "" ∨ Ipv4Cider cv r.dest
  source : r.source = "" ∨ Ipv4Cider cv r.source
  gateway : r.gateway = "" ∨ ipv6FromStr r.gateway = none

theorem parseIpaddr_cases {text : String} {a : Bytes} (h : parseIpaddr text = .ok a) :
    (ipv6FromStr text = none ∧ a.length = 4) ∨ (ipv6FromStr text ≠ none ∧ a.length = 16) := by
  rw [parseIpaddr] at h
  cases h6 : ipv6FromStr text with
  | some v6 =>
    rw [h6] at h
    cases h
    exact .inr ⟨Option.some_ne_none _, ipv6FromStr_length h6⟩
  | none =>
    rw [h6] at h
    cases h4 : ipv4FromStr text with
    | some v4 =>
      rw [h4] at h
      cases h
      exact .inl ⟨rfl, ipv4FromStr_length h4⟩
    | none =>
      rw [h4] at h
      cases h

theorem length_eq_of_parseIpaddr {text : String} {a : Bytes} (h : parseIpaddr text = .ok a) :
    a.length = 4 ↔ ipv6FromStr text = none := by
  rcases parseIpaddr_cases h with ⟨h6, hl⟩ | ⟨h6, hl⟩
  · exact iff_of_true hl h6
  · exact iff_of_false (by omega) h6

theorem addOneAddress_consistent_iff (seq : UInt32) (ifinfo : IfInfoMsg) (ip : RtIPAddr) :
    (addOneAddress seq ifinfo ip).Consistent [13] ↔
      ip.addr.length = familyLength ip.ip_family ∧
        ip.ip_mask.toNat ≤ 8 * familyLength ip.ip_family := by
  have hf : (addOneAddress seq ifinfo ip).family = ip.ip_family := rfl
  have hp : (addOneAddress seq ifinfo ip).head.getD 13 0 = ip.ip_mask := rfl
  constructor
  · intro h
    exact ⟨h.addresses _ List.mem_cons_self rfl, hp ▸ h.lengths 13 (List.mem_singleton_self 13)⟩
  · rintro ⟨ha, hm⟩
    constructor
    · intro a hm _
      rw [hf]
      simp only [addOneAddress, List.mem_cons, List.not_mem_nil, or_false] at hm
      rcases hm with rfl | rfl
      · exact ha
      · exact ha
    · intro i hi
      cases List.mem_singleton.1 hi
      rwa [hp, hf]

/-- The message of an address is consistent exactly where its text is of its family, and its mask
has room in it. -/
theorem rtIPAddrFrom_consistent_iff {ipi : IPAddress} {ip : RtIPAddr}
    (h : rtIPAddrFrom cv ipi = .ok ip) (seq : UInt32) (ifinfo : IfInfoMsg) :
    (addOneAddress seq ifinfo ip).Consistent [13] ↔ ipi.Fits cv := by
  obtain ⟨m, hm, h⟩ := Outcome.bind_eq_ok.1 h
  obtain ⟨a, ha, h⟩ := Outcome.bind_eq_ok.1 h
  cases h
  rw [Outcome.unwrap_eq_ok] at hm ha
  have hcases := parseIpaddr_cases ha
  have hlen : familyLength (if ipi.family = .v4 then AF_INET else AF_INET6) =
      if ipi.family = .v4 then 4 else 16 := by
    split <;> rfl
  have hmask : (m.toNat ≤ if ipi.family = .v4 then 32 else 128) ↔
      m.toNat ≤ 8 * familyLength (if ipi.family = .v4 then AF_INET else AF_INET6) := by
    rw [hlen]
    split <;> rfl
  have hfamily : (ipi.family = .v4 ↔ ipv6FromStr ipi.address = none) ↔
      a.length = familyLength (if ipi.family = .v4 then AF_INET else AF_INET6) := by
    rw [hlen]
    rcases hcases with ⟨h6, ha4⟩ | ⟨h6, ha16⟩
    · by_cases hv : ipi.family = .v4 <;> simp [hv, h6, ha4]
    · by_cases hv : ipi.family = .v4 <;> simp [hv, h6, ha16]
  rw [addOneAddress_consistent_iff, ← hmask, ← hfamily]
  constructor
  · rintro ⟨hf, hl⟩
    refine ⟨hf, fun m' hm' => ?_⟩
    cases hm.symm.trans hm'
    exact hl
  · intro hfits
    exact ⟨hfits.family, hfits.mask m hm⟩

/-- The message of a route is consistent exactly where all that it says is of IPv4. -/
theorem route_consistent_iff {s : Script} {r : RtRoute} (hf : s.family = AF_INET)
    (hd : s.head.getD 13 0 = r.dst_len) (hs : s.head.getD 14 0 = r.src_len)
    (ha : s.attrs = r.attrs) : s.Consistent [13, 14] ↔
      ((∀ a ∈ r.dest, a.length = 4) ∧ r.dst_len.toNat ≤ 32) ∧
        ((∀ a ∈ r.source, a.length = 4) ∧ r.src_len.toNat ≤ 32) ∧
          ∀ a ∈ r.gateway, a.length = 4 := by
  have hl : familyLength s.family = 4 := by
    rw [hf]
    rfl
  have hopt (cat : UInt16) (addr : Option Bytes) : (∀ a ∈ optionAttr cat addr,
      a.isAddress = true → a.len = 4) ↔ ∀ a ∈ addr, a.length = 4 := by
    cases addr with
    | none => simp [optionAttr]
    | some addr => simp [optionAttr, Attr.isAddress, Attr.len]
  have hattrs : (∀ a ∈ s.attrs, a.isAddress = true → a.len = familyLength s.family) ↔
      ((∀ a ∈ r.source, a.length = 4) ∧ ∀ a ∈ r.dest, a.length = 4) ∧
        ∀ a ∈ r.gateway, a.length = 4 := by
    rw [ha, hl, RtRoute.attrs, List.forall_mem_append, List.forall_mem_append,
      List.forall_mem_append, hopt, hopt, hopt, List.forall_mem_singleton]
    exact and_iff_left fun ha => absurd ha Bool.false_ne_true
  have hlens : (∀ i ∈ [13, 14], (s.head.getD i 0).toNat ≤ 8 * familyLength s.family) ↔
      r.dst_len.toNat ≤ 32 ∧ r.src_len.toNat ≤ 32 := by
    rw [hl, List.forall_mem_cons, List.forall_mem_singleton, hd, hs]
  have hboth : s.Consistent [13, 14] ↔ (∀ a ∈ s.attrs, a.isAddress = true →
      a.len = familyLength s.family) ∧
        ∀ i ∈ [13, 14], (s.head.getD i 0).toNat ≤ 8 * familyLength s.family :=
    ⟨fun h => ⟨h.addresses, h.lengths⟩, fun h => ⟨h.1, h.2⟩⟩
  rw [hboth, hattrs, hlens]
  constructor
  · rintro ⟨⟨⟨hsource, hdest⟩, hgateway⟩, hdl, hsl⟩
    exact ⟨⟨hdest, hdl⟩, ⟨hsource, hsl⟩, hgateway⟩
  · rintro ⟨⟨hdest, hdl⟩, ⟨hsource, hsl⟩, hgateway⟩
    exact ⟨⟨⟨hsource, hdest⟩, hgateway⟩, hdl, hsl⟩

theorem parseCider_ipv4_iff {text : String} {a : Bytes} {m : UInt8}
    (h : parseCider cv.cider text = .ok (a, m)) :
    (a.length = 4 ∧ m.toNat ≤ 32) ↔ Ipv4Cider cv text := by
  obtain ⟨p, hp, h⟩ := Outcome.bind_eq_ok.1 h
  obtain ⟨ip, hip, h⟩ := Outcome.bind_eq_ok.1 h
  cases h
  rw [length_eq_of_parseIpaddr hip]
  constructor
  · intro h p' hp'
    cases hp.symm.trans hp'
    exact h
  · intro h
    exact h p hp

theorem destFrom_ipv4_iff {text : String} {a : Bytes} {m : UInt8}
    (h : destFrom cv text = .ok (a, m)) :
    (a.length = 4 ∧ m.toNat ≤ 32) ↔ text = "" ∨ Ipv4Cider cv text := by
  rw [destFrom] at h
  by_cases he : text = ""
  · rw [if_pos he] at h
    cases h
    exact iff_of_true ⟨rfl, by decide⟩ (.inl he)
  · rw [if_neg he, Outcome.unwrap_eq_ok] at h
    rw [parseCider_ipv4_iff h, or_iff_right he]

theorem sourceFrom_ipv4_iff {text : String} {src : Option Bytes} {m : UInt8}
    (h : sourceFrom cv text = .ok (src, m)) :
    ((∀ a ∈ src, a.length = 4) ∧ m.toNat ≤ 32) ↔ text = "" ∨ Ipv4Cider cv text := by
  rw [sourceFrom] at h
  by_cases he : text = ""
  · rw [if_pos he] at h
    cases h
    exact iff_of_true ⟨nofun, by decide⟩ (.inl he)
  · rw [if_neg he] at h
    obtain ⟨⟨a, m'⟩, hp, h⟩ := Outcome.bind_eq_ok.1 h
    rw [Outcome.unwrap_eq_ok] at hp
    cases h
    rw [← parseCider_ipv4_iff hp, or_iff_right he]
    simp

theorem gatewayFrom_ipv4_iff {text : String} {gateway : Option Bytes}
    (h : gatewayFrom text = .ok gateway) :
    (∀ a ∈ gateway, a.length = 4) ↔ text = "" ∨ ipv6FromStr text = none := by
  rw [gatewayFrom] at h
  by_cases he : text = ""
  · rw [if_pos he] at h
    cases h
    exact iff_of_true nofun (.inl he)
  · rw [if_neg he] at h
    obtain ⟨a, hp, h⟩ := Outcome.bind_eq_ok.1 h
    rw [Outcome.unwrap_eq_ok] at hp
    cases h
    rw [← length_eq_of_parseIpaddr hp, or_iff_right he]
    simp

theorem rtRouteFrom_consistent_iff {r : Route} {rt : RtRoute} (h : rtRouteFrom cv r = .ok rt)
    {s : Script} (hf : s.family = AF_INET) (hd : s.head.getD 13 0 = rt.dst_len)
    (hs : s.head.getD 14 0 = rt.src_len) (ha : s.attrs = rt.attrs) :
    s.Consistent [13, 14] ↔ r.Fits cv := by
  obtain ⟨index, -, h⟩ := Outcome.bind_eq_ok.1 h
  obtain ⟨⟨dest, dst_len⟩, hdest, h⟩ := Outcome.bind_eq_ok.1 h
  obtain ⟨⟨source, src_len⟩, hsource, h⟩ := Outcome.bind_eq_ok.1 h
  obtain ⟨gateway, hgateway, h⟩ := Outcome.bind_eq_ok.1 h
  cases h
  have hsome : (∀ a ∈ some dest, a.length = 4) ↔ dest.length = 4 := by simp
  rw [route_consistent_iff hf hd hs ha]
  dsimp only
  rw [hsome, destFrom_ipv4_iff hdest, sourceFrom_ipv4_iff hsource, gatewayFrom_ipv4_iff hgateway]
  exact ⟨fun h => ⟨h.1, h.2.1, h.2.2⟩, fun h => ⟨h.dest, h.source, h.gateway⟩⟩

/-- The messages of addresses and routes that the conversions accept are consistent exactly where
the texts are of the family that the message has, with masks in its bounds. -/
theorem conversion_consistent_iff (cv : Converter) :
    (∀ ipi ip, rtIPAddrFrom cv ipi = .ok ip → ∀ seq ifinfo,
      (addOneAddress seq ifinfo ip).Consistent [13] ↔ ipi.Fits cv) ∧
    ∀ r rt, rtRouteFrom cv r = .ok rt → ∀ seq,
      ((addOneRoute seq rt).Consistent [13, 14] ↔ r.Fits cv) ∧
        ((deleteOneRoute seq rt).Consistent [13, 14] ↔ r.Fits cv) := by
  constructor
  · intro ipi ip h seq ifinfo
    exact rtIPAddrFrom_consistent_iff h seq ifinfo
  · intro r rt h seq
    exact ⟨rtRouteFrom_consistent_iff h rfl rfl rfl rfl,
      rtRouteFrom_consistent_iff h rfl rfl rfl rfl⟩

/-- It knows the link `eth0`, and what it scans are a network and the number 64. -/
def ethTexts : Converter where
  linkIndex name := if name = "eth0" then .ok 2 else .err (.nix ENODEV)
  cider s := if s = "10.1.0.0/16" then .ok ("10.1.0.0", 16) else .err (.msg "match failed")
  mask s := if s = "64" then .ok 64 else .err (.msg "match failed")

/-- 2001:db8::1. -/
def address6 : Bytes := [0x20, 1, 0xd, 0xb8, 0, 0, 0, 0, 0, 0, 0, 0, 0, 0, 0, 1]

theorem ethTexts_consistent :
    ((addOneAddress 1 ⟨0, 0, 2, 0, 0⟩ ⟨AF_INET6, 64, address6⟩).Consistent [13] ↔
      IPAddress.Fits ethTexts ⟨.v6, "2001:db8::1", "64"⟩) ∧
    ((addOneRoute 2 ⟨some [10, 1, 0, 0], none, some address6, 2, 0, 16, 0⟩).Consistent [13, 14] ↔
      Route.Fits ethTexts ⟨"10.1.0.0/16", "2001:db8::1", "eth0", "", 0⟩) :=
  ⟨(conversion_consistent_iff ethTexts).1 _ _ (by decide) 1 ⟨0, 0, 2, 0, 0⟩,
    ((conversion_consistent_iff ethTexts).2 _ _ (by decide) 2).1⟩

/-- An address of IPv6 that is given as one of IPv4. -/
theorem conversion_inconsistent : ¬ ∀ (cv : Converter) (ipi : IPAddress) (ip : RtIPAddr)
    (seq : UInt32) (ifinfo : IfInfoMsg), rtIPAddrFrom cv ipi = .ok ip →
      (addOneAddress seq ifinfo ip).Consistent [13] := by
  intro h
  have hc := h ethTexts ⟨.v4, "2001:db8::1", "64"⟩ ⟨AF_INET, 64, address6⟩ 1 ⟨0, 0, 2, 0, 0⟩
    (by decide)
  exact absurd (hc.addresses _ List.mem_cons_self rfl) (by decide)

end KataAgent
