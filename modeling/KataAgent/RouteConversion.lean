import KataAgent.InterfaceListing
import KataAgent.IpText

namespace KataAgent
open Fallible Records IpText
set_option autoImplicit true

variable {a : Bytes} {text : String} {mask : UInt8} {rest : List Char}

def parseIpaddr (s : String) : Outcome ErrorKind Bytes :=
  match ipv6FromStr s with
  | some v6 => .ok v6
  | none => .ofOption (.ip "invalid IP address syntax") (ipv4FromStr s)

/-- `scan` reads a text by the pattern `{}/{}`. -/
def parseCider (scan : String → Outcome ErrorKind (String × UInt8)) (s : String) :
    Outcome ErrorKind (Bytes × UInt8) := do
  let (addr, mask) ← (if contains s "/" then scan s else .ok (s, 0))
  let ip ← parseIpaddr addr
  .ok (ip, mask)

/-- The `Route` message of `types.proto`. -/
structure Route where
  dest : String
  gateway : String
  device : String
  source : String
  scope : UInt32
  deriving DecidableEq, Repr

/-- What the conversions of requests rely on outside of the program: the index of the link with a
name, and the scanner. -/
structure Converter where
  linkIndex : String → Outcome ErrorKind UInt32
  cider : String → Outcome ErrorKind (String × UInt8)
  mask : String → Outcome ErrorKind UInt8

variable {cv : Converter}

def destFrom (cv : Converter) (dest : String) : Outcome ErrorKind (Bytes × UInt8) :=
  if dest = "" then .ok ([0, 0, 0, 0], 0) else (parseCider cv.cider dest).unwrap

def sourceFrom (cv : Converter) (source : String) : Outcome ErrorKind (Option Bytes × UInt8) :=
  if source = "" then .ok (none, 0)
  else do
    let (src, mask) ← (parseCider cv.cider source).unwrap
    .ok (some src, mask)

def gatewayFrom (gateway : String) : Outcome ErrorKind (Option Bytes) :=
  if gateway = "" then .ok none
  else do
    let gateway ← (parseIpaddr gateway).unwrap
    .ok (some gateway)

/-- `RtRoute::from`. -/
def rtRouteFrom (cv : Converter) (r : Route) : Outcome ErrorKind RtRoute := do
  let index ← (cv.linkIndex r.device).unwrap
  let (dest, dst_len) ← destFrom cv r.dest
  let (source, src_len) ← sourceFrom cv r.source
  let gateway ← gatewayFrom r.gateway
  .ok { dest := some dest, source, gateway, index, scope := r.scope.toUInt8, dst_len, src_len }

/-- `RtIPAddr::from`. -/
def rtIPAddrFrom (cv : Converter) (ipi : IPAddress) : Outcome ErrorKind RtIPAddr := do
  let ip_family := if ipi.family = .v4 then AF_INET else AF_INET6
  let ip_mask ← (cv.mask ipi.mask).unwrap
  let addr ← (parseIpaddr ipi.address).unwrap
  .ok { ip_family, ip_mask, addr }

/-- What the pattern `{}/{}` reads from a word and the number behind it. -/
def ScansCider (scan : String → Outcome ErrorKind (String × UInt8)) : Prop :=
  ∀ (word : String) (n : UInt8), word ≠ "" → (∀ c ∈ word.toList, c ≠ '/' ∧ c.isWhitespace = false) →
    scan (word ++ "/" ++ toString n.toNat) = .ok (word, n)

/-- What `format_address` makes of four bytes. -/
def ipv4Text (a : Bytes) : String :=
  String.ofList (separated '.' (fun b => (toString b.toNat).toList) a)

theorem formatAddress_ipv4 {ipv6 : Bytes → String} (h : a.length = 4) :
    formatAddress ipv6 a = .ok (ipv4Text a) := if_pos h

theorem ipv4Text_eq (h : a.length = 4) :
    ∃ b c d e, a = [b, c, d, e] ∧ ipv4Text a = String.ofList (dotted b c d e) := by
  match a, h with
  | [b, c, d, e], _ =>
    refine ⟨b, c, d, e, rfl, ?_⟩
    simp [ipv4Text, separated, dotted, byteText]

theorem parseIpaddr_ipv4Text (h : a.length = 4) : parseIpaddr (ipv4Text a) = .ok a := by
  obtain ⟨b, c, d, e, rfl, ht⟩ := ipv4Text_eq h
  rw [ht, parseIpaddr, ipv6FromStr_of_notMem, ipv4FromStr_dotted]
  · rfl
  · rw [String.toList_ofList]
    exact colon_notMem_dotted b c d e

theorem ipv4Text_word (h : a.length = 4) : ipv4Text a ≠ "" ∧
    ∀ c ∈ (ipv4Text a).toList, c ≠ '/' ∧ c.isWhitespace = false := by
  obtain ⟨b, c, d, e, rfl, ht⟩ := ipv4Text_eq h
  rw [ht, String.toList_ofList]
  constructor
  · intro he
    have hl := congrArg String.toList he
    rw [String.toList_ofList] at hl
    simp [dotted] at hl
  · intro x hx
    have hdot : '.' ≠ '/' ∧ '.'.isWhitespace = false := by decide
    simp only [dotted, List.mem_append, List.mem_cons] at hx
    rcases hx with hx | rfl | hx | rfl | hx | rfl | hx
    · exact byteText_plain b x hx
    · exact hdot
    · exact byteText_plain c x hx
    · exact hdot
    · exact byteText_plain d x hx
    · exact hdot
    · exact byteText_plain e x hx

/-- A text without a slash is an address with the mask 0. -/
theorem parseCider_ipv4Text {scan : String → Outcome ErrorKind (String × UInt8)}
    (h : a.length = 4) : parseCider scan (ipv4Text a) = .ok (a, 0) := by
  have hn : ¬ contains (ipv4Text a) "/" := fun hc => by
    have hm : '/' ∈ (ipv4Text a).toList := hc.subset (by decide)
    exact ((ipv4Text_word h).2 '/' hm).1 rfl
  rw [parseCider, if_neg hn, Outcome.ok_bind]
  dsimp only
  rw [parseIpaddr_ipv4Text h]
  rfl

theorem parseCider_mask {scan : String → Outcome ErrorKind (String × UInt8)} (hs : ScansCider scan)
    (h : a.length = 4) (n : UInt8) :
    parseCider scan (ipv4Text a ++ "/" ++ toString n.toNat) = .ok (a, n) := by
  have hc : contains (ipv4Text a ++ "/" ++ toString n.toNat) "/" := by
    rw [contains, String.toList_append, String.toList_append]
    exact ⟨_, _, rfl⟩
  rw [parseCider, if_pos hc, hs _ n (ipv4Text_word h).1 (ipv4Text_word h).2, Outcome.ok_bind]
  dsimp only
  rw [parseIpaddr_ipv4Text h]
  rfl

end KataAgent
