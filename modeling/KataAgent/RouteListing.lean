import KataAgent.RouteConversion

namespace KataAgent
open Fallible Records IpText
set_option autoImplicit true

variable {ipv6 : Bytes → String} {links : UInt32 → Nat → Outcome ErrorKind Bytes}
  {cv : Converter} {nlh : Bytes} {rv : List Bytes}

def RTA_TABLE : UInt16 := 15

def RTA_MAX : Nat := 29

/-- The `struct rtmsg` of a message. -/
def rtMsg (nlh : Bytes) : RtMsg where
  family := UInt8.ofNat (field nlh 16 1)
  dst_len := UInt8.ofNat (field nlh 17 1)
  src_len := UInt8.ofNat (field nlh 18 1)
  tos := UInt8.ofNat (field nlh 19 1)
  table := UInt8.ofNat (field nlh 20 1)
  protocol := UInt8.ofNat (field nlh 21 1)
  scope := UInt8.ofNat (field nlh 22 1)
  type := UInt8.ofNat (field nlh 23 1)
  flags := UInt32.ofNat (field nlh 24 4)

/-- The name that a reply gives, if it is a link's with a name. -/
def nameOf (nlh : Bytes) : Outcome ErrorKind (Option String) :=
  if nlh.length < 16 then .panic
  else if Family.link.reads nlh = false ∨ field nlh 0 4 < 32 then .ok none
  else do
    let attrs ← Family.link.parse (IFLA_MAX + 1) nlh
    match attrAt attrs IFLA_IFNAME with
    | none => .ok none
    | some t => do
      let tdata ← .ofUnwrap (getattrVar t)
      let name ← fromUtf8 tdata
      .ok (some name)

/-- The loop of `get_name_by_index`. `talk` gives the replies, the last one first. -/
def nameWithin (talk : Nat → Outcome ErrorKind Bytes) : Nat → Outcome ErrorKind String
  | 0 => .err (.errorCode "no name")
  | tries + 1 => do
    let reply ← talk tries
    match ← nameOf reply with
    | some name => .ok name
    | none => nameWithin talk tries

/-- `links` gives the replies to the requests for a link by its index. -/
def getNameByIndex (links : UInt32 → Nat → Outcome ErrorKind Bytes) (index : UInt32) :
    Outcome ErrorKind String :=
  nameWithin (links index) 5

/-- The attributes of a route that is in the main table. -/
def mainAttrs (nlh : Bytes) : Outcome ErrorKind (Option (List (Option Bytes))) :=
  if (rtMsg nlh).table ≠ RT_TABLE_MAIN then .ok none
  else do
    let attrs ← Family.route.parse (RTA_MAX + 1) nlh
    match attrAt attrs RTA_TABLE with
    | none => .ok (some attrs)
    | some t => do
      let table ← .ofUnwrap (getattr32 t)
      .ok (if table = 254 then some attrs else none)

/-- The loop of `list_routes` and of `get_all_routes`. -/
def readRoutes (read : Bytes → List (Option Bytes) → Outcome ErrorKind α) :
    List Bytes → Outcome ErrorKind (List α)
  | [] => .ok []
  | nlh :: rv => do
    match ← mainAttrs nlh with
    | none => readRoutes read rv
    | some attrs => do
      let rte ← read nlh attrs
      let rs ← readRoutes read rv
      .ok (rte :: rs)

/-- The text of an address, followed by its length if that is to be seen. -/
def listText (ipv6 : Bytes → String) (len : Option UInt8) :
    Option Bytes → Outcome ErrorKind String
  | none => .ok ""
  | some t => do
    let text ← formatAttr ipv6 t
    .ok (match len with
      | none => text
      | some len => text ++ "/" ++ toString len.toNat)

/-- The name of the device; the assertion asks for the four bytes that are read. -/
def listDevice (links : UInt32 → Nat → Outcome ErrorKind Bytes) :
    Option Bytes → Outcome ErrorKind String
  | none => .ok ""
  | some t => do
    let index ← .ofUnwrap (getattr32 t)
    (getNameByIndex links index).unwrapOr "unknown"

/-- The body of the loop of `list_routes`. -/
def listedRoute (ipv6 : Bytes → String) (links : UInt32 → Nat → Outcome ErrorKind Bytes)
    (nlh : Bytes) (attrs : List (Option Bytes)) : Outcome ErrorKind Route := do
  let rtm := rtMsg nlh
  let dest ← listText ipv6 (some rtm.dst_len) (attrAt attrs RTA_DST)
  let gateway ← listText ipv6 none (attrAt attrs RTA_GATEWAY)
  let source ← listText ipv6 (if rtm.src_len ≠ 0 then some rtm.src_len else none)
    ((attrAt attrs RTA_SRC).or (attrAt attrs RTA_PREFSRC))
  let device ← listDevice links (attrAt attrs RTA_OIF)
  -- for gateway, destination is 0.0.0.0
  .ok ⟨if (attrAt attrs RTA_GATEWAY).isSome then "0.0.0.0" else dest, gateway, device, source,
    rtm.scope.toUInt32⟩

def listRoutes (ipv6 : Bytes → String) (links : UInt32 → Nat → Outcome ErrorKind Bytes)
    (dump : Outcome ErrorKind (List Bytes)) : Outcome ErrorKind (List Route) := do
  let rv ← dump
  readRoutes (listedRoute ipv6 links) (Family.route.messages rv)

/-- An `RtRoute` with its protocol. -/
structure DumpedRoute extends RtRoute where
  protocol : UInt8
  deriving DecidableEq

def dumpedBytes : Option Bytes → Outcome ErrorKind (Option Bytes)
  | none => .ok none
  | some t => do
    let b ← .ofUnwrap (getattrVar t)
    .ok (some b)

def dumpedIndex : Option Bytes → Outcome ErrorKind UInt32
  | none => .ok 0
  | some t => .ofUnwrap (getattr32 t)

/-- The body of the loop of `get_all_routes`. -/
def dumpedRoute (nlh : Bytes) (attrs : List (Option Bytes)) : Outcome ErrorKind DumpedRoute := do
  let rtm := rtMsg nlh
  let dest ← dumpedBytes (attrAt attrs RTA_DST)
  let gateway ← dumpedBytes (attrAt attrs RTA_GATEWAY)
  let source ← dumpedBytes ((attrAt attrs RTA_SRC).or (attrAt attrs RTA_PREFSRC))
  let index ← dumpedIndex (attrAt attrs RTA_OIF)
  .ok {
    dest := if gateway.isSome ∧ dest = none then some [0, 0, 0, 0] else dest
    source, gateway, index
    scope := rtm.scope
    dst_len := rtm.dst_len
    src_len := rtm.src_len
    protocol := rtm.protocol }

def getAllRoutes (dump : Outcome ErrorKind (List Bytes)) :
    Outcome ErrorKind (List DumpedRoute) := do
  let rv ← dump
  readRoutes dumpedRoute (Family.route.messages rv)

/-- A route message of the main table, where the dump has no other attributes than IPv4's. -/
structure Ipv4Message (nlh : Bytes) : Prop where
  formed : Family.route.Formed nlh
  addresses : ∀ cat ∈ [RTA_DST, RTA_SRC, RTA_GATEWAY, RTA_PREFSRC],
    ∀ a ∈ Family.route.payload nlh cat, a.length = 4
  numbers : ∀ cat ∈ [RTA_OIF, RTA_TABLE], ∀ a ∈ Family.route.payload nlh cat, a.length = 4

def inMain (nlh : Bytes) : Bool :=
  (rtMsg nlh).table = RT_TABLE_MAIN &&
    (Family.route.payload nlh RTA_TABLE).all fun t => UInt32.ofNat (le t) = 254

/-- The routes of the main table. -/
def mainRoutes (rv : List Bytes) : List Bytes := (rv.filter Family.route.reads).filter inMain

/-- The bytes of a route that is listed with its source: that or the preferred one. -/
def sourceOf (nlh : Bytes) : Option Bytes :=
  (Family.route.payload nlh RTA_SRC).or (Family.route.payload nlh RTA_PREFSRC)

def indexOf (nlh : Bytes) : UInt32 :=
  (Family.route.payload nlh RTA_OIF).elim 0 fun b => UInt32.ofNat (le b)

/-- What `get_all_routes` extracts. -/
def extracted (nlh : Bytes) : DumpedRoute where
  dest := if (Family.route.payload nlh RTA_GATEWAY).isSome ∧
    Family.route.payload nlh RTA_DST = none then some [0, 0, 0, 0]
    else Family.route.payload nlh RTA_DST
  source := sourceOf nlh
  gateway := Family.route.payload nlh RTA_GATEWAY
  index := indexOf nlh
  scope := (rtMsg nlh).scope
  dst_len := (rtMsg nlh).dst_len
  src_len := (rtMsg nlh).src_len
  protocol := (rtMsg nlh).protocol

/-- The destination of the listed route, read back. -/
def backDest (nlh : Bytes) : Bytes × UInt8 :=
  if (Family.route.payload nlh RTA_GATEWAY).isSome then ([0, 0, 0, 0], 0)
  else (Family.route.payload nlh RTA_DST).elim ([0, 0, 0, 0], 0) fun a => (a, (rtMsg nlh).dst_len)

/-- The listed route, converted back. -/
def convertedBack (nlh : Bytes) : RtRoute where
  dest := some (backDest nlh).1
  source := sourceOf nlh
  gateway := Family.route.payload nlh RTA_GATEWAY
  index := indexOf nlh
  scope := (rtMsg nlh).scope
  dst_len := (backDest nlh).2
  src_len := if sourceOf nlh = none then 0 else (rtMsg nlh).src_len

/-- The converted route has what was extracted. No destination counts as 0.0.0.0/0. -/
structure SameRoute (nlh : Bytes) (back : RtRoute) (e : DumpedRoute) : Prop where
  dest : (back.dest, back.dst_len) =
    if Family.route.payload nlh RTA_DST = none then (some [0, 0, 0, 0], 0) else (e.dest, e.dst_len)
  source : (back.source, back.src_len) = (e.source, e.src_len)
  gateway : back.gateway = e.gateway
  scope : back.scope = e.scope

/-- Both functions come to the routes of the main table in their order, and agree about each. -/
def RoutesAgree (ipv6 : Bytes → String) (links : UInt32 → Nat → Outcome ErrorKind Bytes)
    (cv : Converter) (rv : List Bytes) : Prop :=
  ∃ ps : List (Route × DumpedRoute), listRoutes ipv6 links (.ok rv) = .ok (ps.map Prod.fst) ∧
    getAllRoutes (.ok rv) = .ok (ps.map Prod.snd) ∧
    List.Forall₂ (fun nlh p => ∃ back, rtRouteFrom cv p.1 = .ok back ∧ SameRoute nlh back p.2)
      (mainRoutes rv) ps

/-- A gateway stands with no other destination than 0.0.0.0/0, and a source length with a source. -/
structure TextKeeps (nlh : Bytes) : Prop where
  gateway : (Family.route.payload nlh RTA_GATEWAY).isSome →
    ∀ d ∈ Family.route.payload nlh RTA_DST, d = [0, 0, 0, 0] ∧ (rtMsg nlh).dst_len = 0
  source : sourceOf nlh = none → (rtMsg nlh).src_len = 0

/-- A body of the loop with the attributes that it is given. -/
def readMain (read : Bytes → List (Option Bytes) → Outcome ErrorKind α) (nlh : Bytes) :
    Outcome ErrorKind α := do
  let attrs ← Family.route.parse (RTA_MAX + 1) nlh
  read nlh attrs

theorem mainAttrs_eq (h : Ipv4Message nlh) : ∃ attrs,
    Family.route.parse (RTA_MAX + 1) nlh = .ok attrs ∧
      mainAttrs nlh = .ok (if inMain nlh then some attrs else none) := by
  obtain ⟨attrs, hp, hat⟩ := h.formed.parse (RTA_MAX + 1)
  refine ⟨attrs, hp, ?_⟩
  rw [mainAttrs, inMain, Family.payload]
  by_cases ht : (rtMsg nlh).table = RT_TABLE_MAIN
  · rw [if_neg (not_not.2 ht), hp, Outcome.ok_bind, hat RTA_TABLE (by decide), decide_eq_true ht]
    cases hr : Family.route.attr nlh RTA_TABLE with
    | none => rfl
    | some t =>
      have h4 : (t.drop 4).length = 4 := h.numbers RTA_TABLE (by simp) _ (by
        rw [Family.payload, hr]
        rfl)
      dsimp only
      rw [Family.getattr32_attr hr, if_pos h4]
      simp
  · rw [if_pos ht, decide_eq_false ht]
    rfl

theorem readRoutes_eq {read : Bytes → List (Option Bytes) → Outcome ErrorKind α}
    (h : ∀ nlh ∈ rv, Ipv4Message nlh) :
    readRoutes read rv = (rv.filter inMain).mapM (readMain read) := by
  induction rv with
  | nil => rfl
  | cons nlh rv ih =>
    obtain ⟨hn, hl⟩ := List.forall_mem_cons.1 h
    obtain ⟨attrs, hp, hm⟩ := mainAttrs_eq hn
    rw [readRoutes, hm, Outcome.ok_bind]
    cases hi : inMain nlh with
    | false =>
      rw [List.filter_cons_of_neg (by rw [hi]; exact nofun)]
      exact ih hl
    | true =>
      rw [List.filter_cons_of_pos hi, List.mapM_cons, readMain, hp, ← ih hl]
      rfl

/-- The text that is listed for an address. -/
def addressText (len : Option UInt8) (a : Option Bytes) : String :=
  match a with
  | none => ""
  | some a =>
    match len with
    | none => ipv4Text a
    | some len => ipv4Text a ++ "/" ++ toString len.toNat

theorem listText_eq {a : Option Bytes} {len : Option UInt8}
    (ha : ∀ t ∈ a, formatAttr ipv6 t = formatAddress ipv6 (t.drop 4))
    (h4 : ∀ b ∈ a.map (List.drop 4), b.length = 4) :
    listText ipv6 len a = .ok (addressText len (a.map (List.drop 4))) := by
  cases a with
  | none => rfl
  | some t =>
    rw [listText, ha t rfl, formatAddress_ipv4 (h4 _ rfl)]
    cases len with
    | none => rfl
    | some len => rfl

theorem dumpedBytes_eq {a : Option Bytes}
    (ha : ∀ t ∈ a, getattrVar t = some (t.drop 4)) :
    dumpedBytes a = .ok (a.map (List.drop 4)) := by
  cases a with
  | none => rfl
  | some t =>
    rw [dumpedBytes, ha t rfl]
    rfl

theorem source_attr (P : Bytes → Prop)
    (hp : ∀ {cat : UInt16} {t : Bytes}, Family.route.attr nlh cat = some t → P t) :
    ∀ t ∈ (Family.route.attr nlh RTA_SRC).or (Family.route.attr nlh RTA_PREFSRC), P t := by
  intro t ht
  rcases Option.or_eq_some_iff.1 ht with ht | ⟨-, ht⟩
  · exact hp ht
  · exact hp ht

section
variable (h : Ipv4Message nlh)
include h

theorem Ipv4Message.length {cat : UInt16}
    (hc : cat ∈ [RTA_DST, RTA_SRC, RTA_GATEWAY, RTA_PREFSRC]) :
    ∀ b ∈ (Family.route.attr nlh cat).map (List.drop 4), b.length = 4 :=
  h.addresses cat hc

theorem Ipv4Message.length_source : ∀ b ∈ sourceOf nlh, b.length = 4 := by
  intro b hb
  rcases Option.or_eq_some_iff.1 hb with hb | ⟨-, hb⟩
  · exact h.addresses RTA_SRC (by simp) b hb
  · exact h.addresses RTA_PREFSRC (by simp) b hb

/-- What `list_routes` makes of the message. -/
theorem Ipv4Message.listed : readMain (listedRoute ipv6 links) nlh =
    listDevice links (Family.route.attr nlh RTA_OIF) >>= fun device => .ok
      ⟨if (Family.route.payload nlh RTA_GATEWAY).isSome then "0.0.0.0"
        else addressText (some (rtMsg nlh).dst_len) (Family.route.payload nlh RTA_DST),
      addressText none (Family.route.payload nlh RTA_GATEWAY), device,
      addressText (if (rtMsg nlh).src_len ≠ 0 then some (rtMsg nlh).src_len else none)
        (sourceOf nlh), (rtMsg nlh).scope.toUInt32⟩ := by
  obtain ⟨attrs, hp, hat⟩ := h.formed.parse (RTA_MAX + 1)
  have hsource : ((Family.route.attr nlh RTA_SRC).or (Family.route.attr nlh RTA_PREFSRC)).map
      (List.drop 4) = sourceOf nlh := Option.map_or
  rw [readMain, hp, Outcome.ok_bind, listedRoute]
  simp only [hat RTA_DST (by decide), hat RTA_GATEWAY (by decide), hat RTA_SRC (by decide),
    hat RTA_PREFSRC (by decide), hat RTA_OIF (by decide)]
  rw [listText_eq (fun _ => formatAttr_eq) (h.length (by simp)),
    listText_eq (fun _ => formatAttr_eq) (h.length (by simp)),
    listText_eq (source_attr _ formatAttr_eq) (by rw [hsource]; exact h.length_source), hsource]
  simp only [Outcome.ok_bind, Family.payload, Option.isSome_map]

/-- What `get_all_routes` makes of it. -/
theorem Ipv4Message.dumped : readMain dumpedRoute nlh = .ok (extracted nlh) := by
  obtain ⟨attrs, hp, hat⟩ := h.formed.parse (RTA_MAX + 1)
  have hsource : ((Family.route.attr nlh RTA_SRC).or (Family.route.attr nlh RTA_PREFSRC)).map
      (List.drop 4) = sourceOf nlh := Option.map_or
  have hindex : dumpedIndex (Family.route.attr nlh RTA_OIF) = .ok (indexOf nlh) := by
    rw [indexOf, Family.payload]
    cases hr : Family.route.attr nlh RTA_OIF with
    | none => rfl
    | some t =>
      have h4 : (t.drop 4).length = 4 := h.numbers RTA_OIF (by simp) _ (by
        rw [Family.payload, hr]
        rfl)
      rw [dumpedIndex, Family.getattr32_attr hr, if_pos h4]
      rfl
  rw [readMain, hp, Outcome.ok_bind, dumpedRoute]
  simp only [hat RTA_DST (by decide), hat RTA_GATEWAY (by decide), hat RTA_SRC (by decide),
    hat RTA_PREFSRC (by decide), hat RTA_OIF (by decide)]
  rw [dumpedBytes_eq fun _ => Family.getattrVar_attr,
    dumpedBytes_eq fun _ => Family.getattrVar_attr,
    dumpedBytes_eq (source_attr _ Family.getattrVar_attr), hindex, hsource]
  rfl

end

theorem destFrom_text (hs : ScansCider cv.cider) {p : Option Bytes} (hp : ∀ b ∈ p, b.length = 4)
    (n : UInt8) : destFrom cv (addressText (some n) p) =
      .ok (p.elim ([0, 0, 0, 0], 0) fun a => (a, n)) := by
  cases p with
  | none => rfl
  | some a =>
    have hne : addressText (some n) (some a) ≠ "" := fun he => by
      have hl := congrArg String.toList he
      simp [addressText] at hl
    rw [destFrom, if_neg hne, addressText, parseCider_mask hs (hp a rfl)]
    rfl

theorem destFrom_zero : destFrom cv "0.0.0.0" = .ok ([0, 0, 0, 0], 0) := by
  have ht : "0.0.0.0" = ipv4Text [0, 0, 0, 0] := by decide
  rw [destFrom, if_neg (by decide), ht, parseCider_ipv4Text rfl]
  rfl

theorem sourceFrom_text (hs : ScansCider cv.cider) {p : Option Bytes}
    (hp : ∀ b ∈ p, b.length = 4) (n : UInt8) :
    sourceFrom cv (addressText (if n ≠ 0 then some n else none) p) =
      .ok (p, if p = none then 0 else n) := by
  cases p with
  | none => rfl
  | some a =>
    have hw := ipv4Text_word (hp a rfl)
    by_cases hn : n = 0
    · rw [if_neg (not_not.2 hn), addressText, sourceFrom, if_neg hw.1,
        parseCider_ipv4Text (hp a rfl), hn]
      rfl
    · have hne : addressText (some n) (some a) ≠ "" := fun he => by
        have hl := congrArg String.toList he
        simp [addressText] at hl
      rw [if_pos hn, sourceFrom, if_neg hne, addressText, parseCider_mask hs (hp a rfl)]
      rfl

theorem gatewayFrom_text {p : Option Bytes} (hp : ∀ b ∈ p, b.length = 4) :
    gatewayFrom (addressText none p) = .ok p := by
  cases p with
  | none => rfl
  | some a =>
    rw [addressText, gatewayFrom, if_neg (ipv4Text_word (hp a rfl)).1,
      parseIpaddr_ipv4Text (hp a rfl)]
    rfl

/-- The device of the route is found again. -/
def DeviceResolves (links : UInt32 → Nat → Outcome ErrorKind Bytes) (cv : Converter)
    (nlh : Bytes) : Prop :=
  ∃ device, listDevice links (Family.route.attr nlh RTA_OIF) = .ok device ∧
    cv.linkIndex device = .ok (indexOf nlh)

theorem Ipv4Message.back (h : Ipv4Message nlh) (ipv6 : Bytes → String)
    (hs : ScansCider cv.cider) (hd : DeviceResolves links cv nlh) :
    ∃ r, readMain (listedRoute ipv6 links) nlh = .ok r ∧
      rtRouteFrom cv r = .ok (convertedBack nlh) := by
  obtain ⟨device, hdev, hi⟩ := hd
  have hdest : destFrom cv (if (Family.route.payload nlh RTA_GATEWAY).isSome then "0.0.0.0"
      else addressText (some (rtMsg nlh).dst_len) (Family.route.payload nlh RTA_DST)) =
      .ok (backDest nlh) := by
    rw [backDest]
    split
    · exact destFrom_zero
    · exact destFrom_text hs (h.addresses RTA_DST (by simp)) _
  have hsource := sourceFrom_text hs h.length_source (rtMsg nlh).src_len
  have hgateway := gatewayFrom_text (h.addresses RTA_GATEWAY (by simp))
  have hscope : (rtMsg nlh).scope.toUInt32.toUInt8 = (rtMsg nlh).scope := by simp
  rw [h.listed, hdev]
  refine ⟨_, rfl, ?_⟩
  rw [rtRouteFrom, hi, hdest, hsource, hgateway]
  simp only [Outcome.unwrap_ok, Outcome.ok_bind, hscope]
  rfl

theorem sameRoute_dest_iff : ((some (backDest nlh).1, (backDest nlh).2) =
      if Family.route.payload nlh RTA_DST = none then (some [0, 0, 0, 0], 0)
      else ((extracted nlh).dest, (extracted nlh).dst_len)) ↔
    ((Family.route.payload nlh RTA_GATEWAY).isSome →
      ∀ d ∈ Family.route.payload nlh RTA_DST, d = [0, 0, 0, 0] ∧ (rtMsg nlh).dst_len = 0) := by
  rw [backDest]
  cases hd : Family.route.payload nlh RTA_DST with
  | none => simp
  | some d =>
    have he : (extracted nlh).dest = some d := by simp [extracted, hd]
    have hl : (extracted nlh).dst_len = (rtMsg nlh).dst_len := rfl
    rw [he, hl]
    cases hg : Family.route.payload nlh RTA_GATEWAY with
    | none => simp
    | some g => simp [eq_comm]

theorem sameRoute_source_iff :
    ((sourceOf nlh, if sourceOf nlh = none then 0 else (rtMsg nlh).src_len) =
      (sourceOf nlh, (rtMsg nlh).src_len)) ↔ (sourceOf nlh = none → (rtMsg nlh).src_len = 0) := by
  by_cases hs : sourceOf nlh = none
  · simp [hs, eq_comm]
  · simp [hs]

theorem sameRoute_iff : SameRoute nlh (convertedBack nlh) (extracted nlh) ↔ TextKeeps nlh := by
  constructor
  · intro h
    exact ⟨sameRoute_dest_iff.1 h.dest, sameRoute_source_iff.1 h.source⟩
  · intro h
    exact ⟨sameRoute_dest_iff.2 h.gateway, sameRoute_source_iff.2 h.source, rfl, rfl⟩

/-- The two functions agree about a message exactly where its text keeps what it says. -/
theorem Ipv4Message.same_iff (h : Ipv4Message nlh) (hs : ScansCider cv.cider)
    (hd : DeviceResolves links cv nlh) :
    (∃ p : Route × DumpedRoute, (readMain (listedRoute ipv6 links) nlh = .ok p.1 ∧
      readMain dumpedRoute nlh = .ok p.2) ∧
      ∃ back, rtRouteFrom cv p.1 = .ok back ∧ SameRoute nlh back p.2) ↔ TextKeeps nlh := by
  obtain ⟨r, hr, hback⟩ := h.back ipv6 hs hd
  rw [← sameRoute_iff]
  constructor
  · rintro ⟨⟨r', e⟩, ⟨hr', he⟩, back, hb, hsame⟩
    cases hr.symm.trans hr'
    cases hback.symm.trans hb
    cases h.dumped.symm.trans he
    exact hsame
  · intro hsame
    exact ⟨(r, extracted nlh), ⟨hr, h.dumped⟩, convertedBack nlh, hback, hsame⟩

theorem routesAgree_iff_each (ipv6 : Bytes → String)
    (links : UInt32 → Nat → Outcome ErrorKind Bytes) (cv : Converter)
    (h : ∀ nlh ∈ rv, Family.route.reads nlh = true → Ipv4Message nlh) :
    RoutesAgree ipv6 links cv rv ↔ ∀ nlh ∈ mainRoutes rv,
      ∃ p : Route × DumpedRoute, (readMain (listedRoute ipv6 links) nlh = .ok p.1 ∧
        readMain dumpedRoute nlh = .ok p.2) ∧
        ∃ back, rtRouteFrom cv p.1 = .ok back ∧ SameRoute nlh back p.2 := by
  have hloop {α : Type} (read : Bytes → List (Option Bytes) → Outcome ErrorKind α) :
      readRoutes read (Family.route.messages rv) = (mainRoutes rv).mapM (readMain read) := by
    rw [Family.messages_eq fun nlh hm hr => (h nlh hm hr).formed, mainRoutes]
    refine readRoutes_eq fun nlh hm => ?_
    exact h nlh (List.mem_filter.1 hm).1 (List.mem_filter.1 hm).2
  have hlist : listRoutes ipv6 links (.ok rv) =
      (mainRoutes rv).mapM (readMain (listedRoute ipv6 links)) := hloop _
  have hall : getAllRoutes (.ok rv) = (mainRoutes rv).mapM (readMain dumpedRoute) := hloop _
  rw [← exists_forall₂_iff, RoutesAgree, hlist, hall]
  refine exists_congr fun ps => ?_
  rw [Outcome.mapM_eq_ok, Outcome.mapM_eq_ok, List.forall₂_map_right_iff,
    List.forall₂_map_right_iff, forall₂_and_iff, forall₂_and_iff, and_assoc]

/-- The two functions agree about a dump exactly where each route of the main table has no other
destination than 0.0.0.0/0 beside a gateway, and no source length without a source. -/
theorem routesAgree_iff (ipv6 : Bytes → String) (links : UInt32 → Nat → Outcome ErrorKind Bytes)
    (cv : Converter) (hs : ScansCider cv.cider) (rv : List Bytes)
    (h : ∀ nlh ∈ rv, Family.route.reads nlh = true → Ipv4Message nlh)
    (hd : ∀ nlh ∈ mainRoutes rv, DeviceResolves links cv nlh) :
    RoutesAgree ipv6 links cv rv ↔ ∀ nlh ∈ mainRoutes rv, TextKeeps nlh := by
  rw [routesAgree_iff_each ipv6 links cv h]
  refine forall_congr' fun nlh => forall_congr' fun hm => ?_
  obtain ⟨hm', -⟩ := List.mem_filter.1 (List.mem_filter.1 hm).1
  have hr := (List.mem_filter.1 (List.mem_filter.1 hm).1).2
  exact (h nlh hm' hr).same_iff hs (hd nlh hm)

/-- A scanner for a word and a number. -/
def scanSlash (s : String) : Outcome ErrorKind (String × UInt8) :=
  match s.toList.splitOn '/' with
  | [word, number] =>
    match readNumber 10 3 256 false number with
    | some (n, []) => .ok (String.ofList word, UInt8.ofNat n)
    | _ => .err (.msg "match failed")
  | _ => .err (.msg "match failed")

theorem scanSlash_cider : ScansCider scanSlash := by
  intro word n hne hw
  have hn : '/' ∉ word.toList := fun hm => (hw '/' hm).1 rfl
  have hd : '/' ∉ byteText n := fun hm => (byteText_plain n '/' hm).1 rfl
  have hsplit : (word ++ "/" ++ toString n.toNat).toList.splitOn '/' =
      [word.toList, byteText n] := by
    have ht : (word ++ "/" ++ toString n.toNat).toList =
        ['/'].intercalate [word.toList, byteText n] := by
      simp [byteText]
    rw [ht]
    exact List.splitOn_intercalate '/' (by simp [hn, hd]) (List.cons_ne_nil _ _)
  have hread : readNumber 10 3 256 false (byteText n ++ []) = some (n.toNat, []) :=
    readNumber_byteText n fun c hc => by cases hc
  rw [List.append_nil] at hread
  rw [scanSlash, hsplit]
  dsimp only
  rw [hread]
  simp

/-- The link 2 has the name `eth0`. -/
def ethLinks (index : UInt32) (_ : Nat) : Outcome ErrorKind Bytes :=
  if index = 2 then .ok (namedLink 2 [101, 116, 104, 48]) else .err (.nix ENODEV)

def ethConverter : Converter where
  linkIndex name := if name = "eth0\x00" then .ok 2 else .err (.nix ENODEV)
  cider := scanSlash
  mask _ := .err (.msg "match failed")

/-- A route through the link 2, as the kernel dumps it. -/
def routeMessage (dst_len : UInt8) (attrs : List (UInt16 × Bytes)) : Bytes :=
  kernelMessage RTM_NEWROUTE
    (RtMsg.bytes ⟨AF_INET, dst_len, 0, 0, RT_TABLE_MAIN, RTPROTO_BOOT, 0, RTN_UNICAST, 0⟩)
    ((RTA_TABLE, [254, 0, 0, 0]) :: (RTA_OIF, [2, 0, 0, 0]) :: attrs)

/-- 10.0.0.0/24 on the link, and a default route. -/
def plainRoutes : List Bytes :=
  [routeMessage 24 [(RTA_DST, [10, 0, 0, 0]), (RTA_PREFSRC, [10, 0, 0, 7])],
    routeMessage 0 [(RTA_GATEWAY, [10, 0, 0, 1])]]

theorem payload_lengths {cats : List UInt16}
    (h : (cats.all fun cat => (Family.route.payload nlh cat).all (·.length = 4)) = true) :
    ∀ cat ∈ cats, ∀ a ∈ Family.route.payload nlh cat, a.length = 4 := by
  intro cat hc a ha
  have hall := List.all_eq_true.1 h cat hc
  rw [ha] at hall
  exact of_decide_eq_true hall

theorem plainRoutes_ipv4 : ∀ nlh ∈ plainRoutes, Family.route.reads nlh = true →
    Ipv4Message nlh := by
  intro nlh hm _
  rcases List.mem_cons.1 hm with rfl | hm
  · exact ⟨by decide, payload_lengths (by decide), payload_lengths (by decide)⟩
  · cases List.mem_singleton.1 hm
    exact ⟨by decide, payload_lengths (by decide), payload_lengths (by decide)⟩

theorem routesAgree_plain : RoutesAgree (fun _ => "") ethLinks ethConverter plainRoutes := by
  have hmain : mainRoutes plainRoutes = plainRoutes := by decide
  refine (routesAgree_iff _ _ _ scanSlash_cider _ plainRoutes_ipv4 ?_).2 ?_
  · intro nlh hm
    rw [hmain] at hm
    rcases List.mem_cons.1 hm with rfl | hm
    · exact ⟨"eth0\x00", by decide, by decide⟩
    · cases List.mem_singleton.1 hm
      exact ⟨"eth0\x00", by decide, by decide⟩
  · intro nlh hm
    rw [hmain] at hm
    rcases List.mem_cons.1 hm with rfl | hm
    · exact ⟨by decide, by decide⟩
    · cases List.mem_singleton.1 hm
      exact ⟨by decide, by decide⟩

/-- 10.1.0.0/16 through the gateway 10.0.0.1. -/
def gatewayRoute : Bytes := routeMessage 16 [(RTA_DST, [10, 1, 0, 0]), (RTA_GATEWAY, [10, 0, 0, 1])]

/-- A route through a gateway is listed as a default route. -/
theorem routesAgree_ne : ¬ ∀ (ipv6 : Bytes → String)
    (links : UInt32 → Nat → Outcome ErrorKind Bytes) (cv : Converter) (rv : List Bytes),
    ScansCider cv.cider → (∀ nlh ∈ rv, Family.route.reads nlh = true → Ipv4Message nlh) →
    (∀ nlh ∈ mainRoutes rv, DeviceResolves links cv nlh) → RoutesAgree ipv6 links cv rv := by
  intro h
  have hmain : mainRoutes [gatewayRoute] = [gatewayRoute] := by decide
  have hipv4 : Ipv4Message gatewayRoute :=
    ⟨by decide, payload_lengths (by decide), payload_lengths (by decide)⟩
  have hall : ∀ nlh ∈ [gatewayRoute], Family.route.reads nlh = true → Ipv4Message nlh := by
    intro nlh hm _
    cases List.mem_singleton.1 hm
    exact hipv4
  have hdev : DeviceResolves ethLinks ethConverter gatewayRoute :=
    ⟨"eth0\x00", by decide, by decide⟩
  have ha := h (fun _ => "") ethLinks ethConverter [gatewayRoute] scanSlash_cider hall (by
    intro nlh hm
    rw [hmain] at hm
    cases List.mem_singleton.1 hm
    exact hdev)
  have heach := (routesAgree_iff_each _ _ _ hall).1 ha gatewayRoute (by
    rw [hmain]
    exact List.mem_singleton_self _)
  have hkeeps := (hipv4.same_iff scanSlash_cider hdev).1 heach
  exact absurd (hkeeps.gateway rfl) (by decide)

end KataAgent
