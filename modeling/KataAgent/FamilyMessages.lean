import KataAgent.AttributeRoundTrip
import KataAgent.NetlinkWalks

namespace KataAgent
open Fallible Records
set_option autoImplicit true

variable {f : Family} {nlh rta : Bytes} {cat : UInt16} {lv : List Bytes}

def RTM_DELLINK : Nat := 17
def RTM_NEWADDR : Nat := 20
def RTM_NEWROUTE : Nat := 24
def RTM_DELROUTE : Nat := 25

/-- The types of the messages that a function reads. -/
def Family.reads (f : Family) (nlh : Bytes) : Bool :=
  match f with
  | .link => nlmsgType nlh = RTM_NEWLINK || nlmsgType nlh = RTM_DELLINK
  | .addr => nlmsgType nlh = RTM_NEWADDR
  | .route => nlmsgType nlh = RTM_NEWROUTE || nlmsgType nlh = RTM_DELROUTE

/-- A loop over a dump: messages of another type are passed over, and a short one ends it. -/
def Family.messages (f : Family) : List Bytes → List Bytes
  | [] => []
  | nlh :: lv =>
    if f.reads nlh then
      if field nlh 0 4 < align (16 + f.size) then [] else nlh :: f.messages lv
    else f.messages lv

/-- `parse_attrs` of a message. It unwinds where it would leave the message. -/
def Family.parse (f : Family) (max : Nat) (nlh : Bytes) : Outcome ErrorKind (List (Option Bytes)) :=
  .ofUnwrap (parseAttrs max nlh (f.cursor nlh))

/-- `attrs[cat]`, where no attribute stands for the null pointer. -/
def attrAt (attrs : List (Option Bytes)) (cat : UInt16) : Option Bytes := attrs[cat.toNat]?.join

/-- The header of the family is there, and each attribute behind it with its padding. -/
structure Family.Formed (f : Family) (nlh : Bytes) : Prop where
  header : 16 + f.size ≤ nlh.length
  length_eq : field nlh 0 4 = nlh.length
  padded : rtattr.Padded (fun _ => true) (nlh.drop (16 + f.size))

theorem Family.formed_iff : f.Formed nlh ↔ 16 + f.size ≤ nlh.length ∧ field nlh 0 4 = nlh.length ∧
    rtattr.Padded (fun _ => true) (nlh.drop (16 + f.size)) :=
  ⟨fun h => ⟨h.header, h.length_eq, h.padded⟩, fun h => ⟨h.1, h.2.1, h.2.2⟩⟩

instance : Decidable (Family.Formed f nlh) := decidable_of_iff' _ Family.formed_iff

/-- The messages of a dump that the function reads are well formed. -/
abbrev Family.FormedDump (f : Family) (lv : List Bytes) : Prop :=
  ∀ nlh ∈ lv, f.reads nlh = true → f.Formed nlh

/-- An attribute as the kernel lays it out: its length leaves the padding out. -/
def kernelAttr (cat : UInt16) (d : Bytes) : Bytes :=
  leBytes 2 (d.length + 4) ++ leBytes 2 cat.toNat ++ d ++ zeros (align d.length - d.length)

def kernelMessage (type : Nat) (header : Bytes) (attrs : List (UInt16 × Bytes)) : Bytes :=
  let body := header ++ (attrs.map fun a => kernelAttr a.1 a.2).flatten
  leBytes 4 (16 + body.length) ++ leBytes 2 type ++ zeros 10 ++ body

/-- The first attribute of the type. -/
def Family.attr (f : Family) (nlh : Bytes) (cat : UInt16) : Option Bytes :=
  (rtattr.records (nlh.drop (16 + f.size))).find? fun rta => rtaType rta = cat.toNat

def Family.payload (f : Family) (nlh : Bytes) (cat : UInt16) : Option Bytes :=
  (f.attr nlh cat).map (List.drop 4)

theorem Family.align_size (f : Family) :
    align f.size = f.size ∧ align (16 + f.size) = 16 + f.size ∧ f.size ≤ 16 := by
  cases f with
  | link => exact ⟨rfl, rfl, by decide⟩
  | addr => exact ⟨rfl, rfl, by decide⟩
  | route => exact ⟨rfl, rfl, by decide⟩

theorem Family.Formed.cursor (h : f.Formed nlh) :
    (f.cursor nlh).In nlh ∧ (f.cursor nlh).rest nlh = nlh.drop (16 + f.size) := by
  obtain ⟨ha, ha', hs⟩ := f.align_size
  have hlt : nlh.length < 2 ^ 32 := by
    rw [← h.length_eq]
    exact Format.size_lt nlmsghdr nlh
  have hle := h.header
  have h32 : align32 (f.size + 16) = 16 + f.size := by
    rw [Nat.add_comm, align32_eq (by omega), ha']
  have hc : f.cursor nlh = ⟨16 + f.size, nlh.length - (16 + f.size)⟩ := by
    rw [Family.cursor, ha, h32, h.length_eq]
    congr 1
    omega
  rw [hc]
  refine ⟨⟨by dsimp only; omega, by dsimp only; omega⟩, ?_⟩
  rw [Cursor.rest, List.take_of_length_le (by rw [List.length_drop])]

theorem Family.Formed.parse (h : f.Formed nlh) (max : Nat) : ∃ attrs, f.parse max nlh = .ok attrs ∧
    ∀ cat : UInt16, cat.toNat < max → attrAt attrs cat = f.attr nlh cat := by
  obtain ⟨hin, hrest⟩ := h.cursor
  obtain ⟨attrs, ha, hf⟩ := parseAttrs_eq max hin (hrest ▸ h.padded)
  rw [hrest] at hf
  refine ⟨attrs, by rw [Family.parse, ha]; rfl, fun cat hc => ?_⟩
  rw [attrAt, hf.first _ hc]
  rfl

/-- What an attribute of a message is like. -/
theorem Family.length_attr (h : f.attr nlh cat = some rta) :
    4 ≤ rta.length ∧ field rta 0 2 = rta.length :=
  Format.mem_records (List.mem_of_find?_eq_some h)

theorem Family.rtaPayload_attr (h : f.attr nlh cat = some rta) :
    rtaPayload rta = some (rta.length - 4) := by
  obtain ⟨hl, hf⟩ := Family.length_attr h
  have hlt : rta.length < 2 ^ 32 := hf ▸ Format.size_lt rtattr rta
  rw [rtaPayload, load_eq (by omega), Option.map_some, hf]
  exact congrArg some (by omega)

theorem Family.getattrVar_attr (h : f.attr nlh cat = some rta) :
    getattrVar rta = some (rta.drop 4) := by
  obtain ⟨hl, -⟩ := Family.length_attr h
  rw [getattrVar, Family.rtaPayload_attr h]
  dsimp only [Option.bind_eq_bind, Option.bind_some]
  rw [if_pos (by omega), List.take_of_length_le (by rw [List.length_drop])]

theorem Family.getattr32_attr (h : f.attr nlh cat = some rta) : getattr32 rta =
    if (rta.drop 4).length = 4 then some (UInt32.ofNat (le (rta.drop 4))) else none := by
  obtain ⟨hl, -⟩ := Family.length_attr h
  have hp := Family.rtaPayload_attr h
  rw [getattr32, getattrExact, hp, List.length_drop]
  dsimp only [Option.bind_eq_bind, Option.bind_some]
  by_cases h4 : rta.length - 4 = 4
  · rw [if_pos h4, if_pos h4, getattrSize, hp, h4]
    dsimp only [Option.bind_eq_bind, Option.bind_some]
    rw [if_pos (by decide), load_eq (by omega), field,
      List.take_of_length_le (by rw [List.length_drop]; omega)]
    rfl
  · rw [if_neg h4, if_neg h4]
    rfl

/-- Where the dump is well formed, the loop comes to every message that it reads. -/
theorem Family.messages_eq (h : f.FormedDump lv) : f.messages lv = lv.filter f.reads := by
  induction lv with
  | nil => rfl
  | cons nlh lv ih =>
    obtain ⟨hn, hl⟩ := List.forall_mem_cons.1 h
    rw [Family.messages, ih hl]
    cases hr : f.reads nlh with
    | false => rw [if_neg Bool.false_ne_true, List.filter_cons_of_neg (by rw [hr]; exact nofun)]
    | true =>
      have hd := (hn hr).header
      rw [if_pos rfl, f.align_size.2.1, (hn hr).length_eq, if_neg (by omega),
        List.filter_cons_of_pos hr]

end KataAgent
