import KataAgent.FamilyMessages
import KataAgent.RequestMessages

namespace KataAgent
open Fallible Records
set_option autoImplicit true

variable {hw nlh : Bytes} {lv : List Bytes}

def IFLA_ADDRESS : UInt16 := 1

def IFLA_MAX : Nat := 51

def ENODEV : Errno := .other 19

/-- `memcmp(a, b, n) == 0`. There is no value where the call may read past one of the two. -/
def memcmp (a b : Bytes) (n : Nat) : Option Bool :=
  if n ≤ a.length ∧ n ≤ b.length then some (decide (a.take n = b.take n)) else none

/-- The `struct ifinfomsg` of a message. -/
def ifInfoMsg (nlh : Bytes) : IfInfoMsg where
  family := UInt8.ofNat (field nlh 16 1)
  type := UInt16.ofNat (field nlh 18 2)
  index := UInt32.ofNat (field nlh 20 4)
  flags := UInt32.ofNat (field nlh 24 4)
  change := UInt32.ofNat (field nlh 28 4)

/-- The test that `find_link_by_hwaddr` makes of a link. -/
def matchesHwaddr (hw nlh : Bytes) : Outcome ErrorKind Bool := do
  let attrs ← Family.link.parse (IFLA_MAX + 1) nlh
  match attrAt attrs IFLA_ADDRESS with
  | none => .ok false
  | some rta =>
    let n ← .ofUnwrap (rtaPayload rta)
    .ofUnwrap (memcmp hw (rta.drop 4) n)

/-- Its loop, with the message that it ends at. -/
def linkByHwaddr (hw : Bytes) : List Bytes → Outcome ErrorKind (Option Bytes)
  | [] => .ok none
  | nlh :: lv => do
    if ← matchesHwaddr hw nlh then .ok (some nlh) else linkByHwaddr hw lv

/-- `scan` reads the six bytes from their text. -/
def findLinkByHwaddr (scan : String → Outcome ErrorKind Bytes)
    (dump : Outcome ErrorKind (List Bytes)) (hwaddr : String) : Outcome ErrorKind IfInfoMsg := do
  let hw ← scan hwaddr
  let lv ← dump
  match ← linkByHwaddr hw (Family.link.messages lv) with
  | none => .err (.nix ENODEV)
  | some nlh => .ok (ifInfoMsg nlh)

/-- A link whose hardware address is exactly this one. -/
def hasHwaddr (hw nlh : Bytes) : Bool :=
  Family.link.reads nlh && decide (Family.link.payload nlh IFLA_ADDRESS = some hw)

/-- The first such link is found, without a read past an address. -/
structure FindsExactly (scan : String → Outcome ErrorKind Bytes) (lv : List Bytes)
    (hwaddr : String) (hw : Bytes) : Prop where
  link : linkByHwaddr hw (Family.link.messages lv) = .ok (lv.find? (hasHwaddr hw))
  info : findLinkByHwaddr scan (.ok lv) hwaddr =
    match lv.find? (hasHwaddr hw) with
    | none => .err (.nix ENODEV)
    | some nlh => .ok (ifInfoMsg nlh)

theorem matchesHwaddr_eq (h : Family.link.Formed nlh) : matchesHwaddr hw nlh =
    match Family.link.payload nlh IFLA_ADDRESS with
    | none => .ok false
    | some a => if a.length ≤ hw.length then .ok (decide (a <+: hw)) else .panic := by
  obtain ⟨attrs, ha, hat⟩ := h.parse (IFLA_MAX + 1)
  rw [matchesHwaddr, ha, Family.payload]
  change (match attrAt attrs IFLA_ADDRESS with | none => _ | some rta => _) = _
  rw [hat IFLA_ADDRESS (by decide)]
  cases hr : Family.link.attr nlh IFLA_ADDRESS with
  | none => rfl
  | some rta =>
    have hl : (rta.drop 4).length = rta.length - 4 := List.length_drop
    dsimp only [Option.map_some]
    rw [Family.rtaPayload_attr hr, ← hl]
    change Outcome.ofUnwrap (memcmp hw (rta.drop 4) (rta.drop 4).length) = _
    rw [memcmp]
    by_cases hle : (rta.drop 4).length ≤ hw.length
    · rw [if_pos ⟨hle, Nat.le_refl _⟩, if_pos hle, List.take_length]
      have hp : hw.take (rta.drop 4).length = rta.drop 4 ↔ rta.drop 4 <+: hw :=
        eq_comm.trans List.prefix_iff_eq_take.symm
      rw [decide_eq_decide.2 hp]
      rfl
    · rw [if_neg fun hc => hle hc.1, if_neg hle]
      rfl

theorem hasHwaddr_iff : hasHwaddr hw nlh = true ↔
    Family.link.reads nlh = true ∧ Family.link.payload nlh IFLA_ADDRESS = some hw := by
  rw [hasHwaddr, Bool.and_eq_true, decide_eq_true_iff]

/-- No link before the right one has an address that is longer, or that the right one begins
with. -/
def NoneBefore (hw : Bytes) (lv : List Bytes) : Prop :=
  ∀ nlh ∈ lv.takeWhile fun nlh => !hasHwaddr hw nlh, Family.link.reads nlh = true →
    ∀ a ∈ Family.link.payload nlh IFLA_ADDRESS, a.length ≤ hw.length ∧ ¬ a <+: hw

instance : Decidable (NoneBefore hw lv) :=
  inferInstanceAs (Decidable (∀ nlh ∈ _, _ = true → ∀ a ∈ _, _ ∧ ¬ _))

theorem noneBefore_cons (h : hasHwaddr hw nlh = false) : NoneBefore hw (nlh :: lv) ↔
    (Family.link.reads nlh = true → ∀ a ∈ Family.link.payload nlh IFLA_ADDRESS,
      a.length ≤ hw.length ∧ ¬ a <+: hw) ∧ NoneBefore hw lv := by
  unfold NoneBefore
  rw [List.takeWhile_cons_of_pos (by simp [h]), List.forall_mem_cons]

/-- The loop gets past a link that it should not end at where the address is neither longer nor a
beginning. -/
theorem linkByHwaddr_cons_iff {lv : List Bytes} {found : Option Bytes}
    (h : Family.link.Formed nlh) (hf : found ≠ some nlh) :
    linkByHwaddr hw (nlh :: lv) = .ok found ↔
      (∀ a ∈ Family.link.payload nlh IFLA_ADDRESS, a.length ≤ hw.length ∧ ¬ a <+: hw) ∧
        linkByHwaddr hw lv = .ok found := by
  rw [linkByHwaddr, matchesHwaddr_eq h]
  cases hp : Family.link.payload nlh IFLA_ADDRESS with
  | none => exact (and_iff_right nofun).symm
  | some a =>
    have hall : (∀ b ∈ some a, b.length ≤ hw.length ∧ ¬ b <+: hw) ↔
        a.length ≤ hw.length ∧ ¬ a <+: hw := by simp
    rw [hall]
    dsimp only
    by_cases hle : a.length ≤ hw.length
    · rw [if_pos hle]
      by_cases hpre : a <+: hw
      · rw [decide_eq_true hpre]
        apply iff_of_false
        · intro he
          exact hf (Outcome.ok.inj he).symm
        · intro hc
          exact hc.1.2 hpre
      · rw [decide_eq_false hpre]
        exact (and_iff_right ⟨hle, hpre⟩).symm
    · rw [if_neg hle]
      exact iff_of_false nofun fun hc => hle hc.1.1

theorem linkByHwaddr_eq_iff (hw : Bytes) (h : Family.link.FormedDump lv) :
    linkByHwaddr hw (Family.link.messages lv) = .ok (lv.find? (hasHwaddr hw)) ↔
      NoneBefore hw lv := by
  rw [Family.messages_eq h]
  induction lv with
  | nil => exact iff_of_true rfl nofun
  | cons nlh lv ih =>
    obtain ⟨hn, hl⟩ := List.forall_mem_cons.1 h
    cases hr : Family.link.reads nlh with
    | false =>
      have hf : hasHwaddr hw nlh = false := by rw [hasHwaddr, hr, Bool.false_and]
      rw [List.filter_cons_of_neg (by rw [hr]; exact nofun),
        List.find?_cons_of_neg (by rw [hf]; exact nofun), noneBefore_cons hf, hr, ih hl]
      exact (and_iff_right nofun).symm
    | true =>
      rw [List.filter_cons_of_pos hr]
      by_cases hh : hasHwaddr hw nlh = true
      · rw [linkByHwaddr, matchesHwaddr_eq (hn hr), (hasHwaddr_iff.1 hh).2,
          List.find?_cons_of_pos hh]
        apply iff_of_true
        · simp
        · rw [NoneBefore, List.takeWhile_cons_of_neg (by simp [hh])]
          exact nofun
      · have hf : hasHwaddr hw nlh = false := by simpa using hh
        have hother : lv.find? (hasHwaddr hw) ≠ some nlh := by
          intro hs
          exact hh (List.find?_some hs)
        rw [List.find?_cons_of_neg hh, noneBefore_cons hf, ← ih hl, forall_prop_of_true hr,
          linkByHwaddr_cons_iff (hn hr) hother]

/-- The right link is found, and nothing is read past an address, exactly where no link before it
has an address that is longer than the requested one or its beginning. -/
theorem findLinkByHwaddr_iff (scan : String → Outcome ErrorKind Bytes) (hwaddr : String)
    (hw : Bytes) (hs : scan hwaddr = .ok hw) (lv : List Bytes) (h : Family.link.FormedDump lv) :
    FindsExactly scan lv hwaddr hw ↔ NoneBefore hw lv := by
  have hloop := linkByHwaddr_eq_iff hw h
  refine ⟨fun hf => hloop.1 hf.link, fun hn => ⟨hloop.2 hn, ?_⟩⟩
  rw [findLinkByHwaddr, hs]
  change (linkByHwaddr hw (Family.link.messages lv) >>= fun found => match found with
    | none => _
    | some nlh => _) = _
  rw [hloop.2 hn]
  rfl

/-- A link with a hardware address, as the kernel dumps it. -/
def linkMessage (index : UInt32) (address : Bytes) : Bytes :=
  kernelMessage RTM_NEWLINK (IfInfoMsg.bytes ⟨0, 1, index, 0, 0⟩) [(IFLA_ADDRESS, address)]

/-- The address of a network card, and that of a tunnel from 10.0.0.1. -/
def cardAddress : Bytes := [10, 0, 0, 1, 2, 3]

def tunnelAddress : Bytes := [10, 0, 0, 1]

theorem findLinkByHwaddr_card :
    FindsExactly (fun _ => .ok cardAddress) [linkMessage 1 [0, 0, 0, 0, 0, 0],
      linkMessage 2 cardAddress, linkMessage 3 tunnelAddress] "0A:00:00:01:02:03" cardAddress :=
  (findLinkByHwaddr_iff _ _ _ rfl _ (by decide)).2 (by decide)

/-- The tunnel is taken for the card. -/
theorem findLinkByHwaddr_ne : ¬ ∀ (scan : String → Outcome ErrorKind Bytes) (hwaddr : String)
    (hw : Bytes) (lv : List Bytes), scan hwaddr = .ok hw → hw.length = 6 →
    Family.link.FormedDump lv → FindsExactly scan lv hwaddr hw := by
  intro h
  have hf := h (fun _ => .ok cardAddress) "0A:00:00:01:02:03" cardAddress
    [linkMessage 3 tunnelAddress, linkMessage 2 cardAddress] rfl rfl (by decide)
  exact absurd hf.info (by decide)

end KataAgent
