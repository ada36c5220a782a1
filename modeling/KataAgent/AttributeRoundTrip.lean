import KataAgent.AttributeWrites

namespace KataAgent
open Records
set_option autoImplicit true

/-- The header that stands between that of the message and its attributes. -/
inductive Family where
  | link
  | addr
  | route
  deriving DecidableEq

/-- The size of `struct ifinfomsg`, `struct ifaddrmsg` or `struct rtmsg`. -/
def Family.size : Family → Nat
  | .link => 16
  | .addr => 8
  | .route => 12

/-- Where `parse_attrs` starts (`IFLA_RTA`, `IFA_RTA`, `RTM_RTA`), and the length that it is given
(`NLMSG_PAYLOAD`). -/
def Family.cursor (f : Family) (nlh : Bytes) : Cursor :=
  ⟨16 + align f.size, (field nlh 0 4 + 2 ^ 32 - align32 (f.size + 16)) % 2 ^ 32⟩

/-- The reader that belongs to the writer returns what was written. -/
def Attr.ReadBack (rta : Bytes) : Attr → Prop
  | .var _ data len => getattrVar rta = some (data.take len)
  | .u8 _ val => getattr8 rta = some val
  | .u16 _ val => getattr16 rta = some val
  | .u32 _ val => getattr32 rta = some val
  | .u64 _ val => getattr64 rta = some val

/-- The first attribute of the category. -/
def firstOf (as : List Attr) (t : Nat) : Option Attr := as.find? fun a => a.cat.toNat = t

/-- Reading a message gives what was written to it. -/
structure ReadsBack (f : Family) (max : Nat) (as : List Attr) (nlh : Bytes) : Prop where
  visited : (parseBody max).visited nlh ((f.cursor nlh).left + 1) (f.cursor nlh)
    (List.replicate max none) = as.map Attr.encoded
  first : ∃ attrs, parseAttrs max nlh (f.cursor nlh) = some attrs ∧
    FirstOfEach max (as.map Attr.encoded) attrs
  exact : ∀ t < max, ∀ a ∈ firstOf as t, a.ReadBack a.encoded

theorem size_encode {cat : UInt16} {d : Bytes} (h : align (d.length + 4) < 2 ^ 16) :
    rtattr.size (encode cat d) = align (d.length + 4) := by
  rw [encode, List.append_assoc, List.append_assoc]
  change le ((leBytes 2 _ ++ _).take 2) = _
  rw [List.take_left' length_leBytes, le_leBytes_of_lt (by omega)]

theorem drop_encode {cat : UInt16} {d : Bytes} :
    (encode cat d).drop 4 = d ++ zeros (align d.length - d.length) := by
  rw [encode, List.append_assoc]
  exact List.drop_left' (by rw [List.length_append, length_leBytes, length_leBytes])

theorem align_add (n : Nat) : align (n + 4) = align n + 4 := by
  unfold align
  omega

theorem rtaPayload_encode {cat : UInt16} {d : Bytes} (h : align (d.length + 4) < 2 ^ 16) :
    rtaPayload (encode cat d) = some (align d.length) := by
  have hadd := align_add d.length
  have hs : field (encode cat d) 0 2 = align (d.length + 4) := size_encode h
  have he : (align d.length + 4 + 2 ^ 32 - 4) % 2 ^ 32 = align d.length := by omega
  rw [rtaPayload, load_eq (by rw [length_encode]; omega), Option.map_some, hs, hadd, he]

/-- `getattr_var` returns what fills the attribute up too. -/
theorem getattrVar_encode {cat : UInt16} {d : Bytes} (h : align (d.length + 4) < 2 ^ 16) :
    getattrVar (encode cat d) = some (d ++ zeros (align d.length - d.length)) := by
  have hadd := align_add d.length
  have hle := le_align d.length
  rw [getattrVar, rtaPayload_encode h]
  dsimp only [Option.bind_eq_bind, Option.bind_some]
  rw [if_pos (by rw [length_encode]; omega), drop_encode, List.take_of_length_le]
  rw [List.length_append, length_zeros]
  omega

/-- The readers of values return one only where the payload has not been filled up. -/
theorem getattrExact_encode {cat : UInt16} (size val : Nat) (hs : 0 < size ∧ size ≤ 8)
    (hv : val < 256 ^ size) : getattrExact (encode cat (leBytes size val)) size =
      if size = 4 ∨ size = 8 then some val else none := by
  have hlen : (leBytes size val).length = size := length_leBytes
  have hlt := align_lt size
  have hle := le_align size
  have hadd := align_add size
  rw [getattrExact, rtaPayload_encode (by rw [hlen]; omega), hlen]
  dsimp only [Option.bind_eq_bind, Option.bind_some]
  by_cases h : size = 4 ∨ size = 8
  · have he : align size = size := align_of_dvd (by omega)
    rw [if_pos h, if_pos he, getattrSize, rtaPayload_encode (by rw [hlen]; omega), hlen, he]
    dsimp only [Option.bind_eq_bind, Option.bind_some]
    rw [if_pos (by omega), load_eq (by rw [length_encode, hlen]; omega), field, drop_encode,
      List.take_left' hlen, le_leBytes_of_lt hv]
  · have hmod := align_mod size
    rw [if_neg h, if_neg (by omega)]

theorem Attr.readBack_iff {a : Attr} (ho : a.Owned) (h : align (a.len + 4) < 2 ^ 16) :
    a.ReadBack a.encoded ↔ a.len % 4 = 0 := by
  cases a with
  | var cat data len =>
    have hlen : (data.take len).length = len := ho.length_payload (a := .var cat data len)
    change getattrVar (encode cat (data.take len)) = some (data.take len) ↔ _
    rw [getattrVar_encode (by rw [hlen]; exact h), Option.some_inj, List.append_right_eq_self, hlen]
    have hle := le_align len
    have hlt := align_lt len
    have hmod := align_mod len
    constructor
    · intro hz
      have hl := congrArg List.length hz
      rw [length_zeros, List.length_nil] at hl
      change len % 4 = 0
      omega
    · intro hz
      change len % 4 = 0 at hz
      rw [align_of_dvd hz, Nat.sub_self]
      rfl
  | u8 cat val =>
    refine iff_of_false ?_ (show ¬ 1 % 4 = 0 by decide)
    change (getattrExact (encode cat (leBytes 1 val.toNat)) 1).map _ ≠ _
    rw [getattrExact_encode 1 _ (by decide) val.toNat_lt]
    exact nofun
  | u16 cat val =>
    refine iff_of_false ?_ (show ¬ 2 % 4 = 0 by decide)
    change (getattrExact (encode cat (leBytes 2 val.toNat)) 2).map _ ≠ _
    rw [getattrExact_encode 2 _ (by decide) val.toNat_lt]
    exact nofun
  | u32 cat val =>
    refine iff_of_true ?_ (show 4 % 4 = 0 by decide)
    change (getattrExact (encode cat (leBytes 4 val.toNat)) 4).map _ = _
    rw [getattrExact_encode 4 _ (by decide) val.toNat_lt]
    exact congrArg some UInt32.ofNat_toNat
  | u64 cat val =>
    refine iff_of_true ?_ (show 8 % 4 = 0 by decide)
    change (getattrExact (encode cat (leBytes 8 val.toNat)) 8).map _ = _
    rw [getattrExact_encode 8 _ (by decide) val.toNat_lt]
    exact congrArg some UInt64.ofNat_toNat

/-- What a writer leaves is a record; its length covers its padding. -/
def Attr.record (a : Attr) (ho : a.Owned) (h : align (a.len + 4) < 2 ^ 16) : rtattr.Record where
  bytes := a.encoded
  pad := []
  header_le := by
    have hle := le_align (a.payload.length + 4)
    rw [Attr.encoded, length_encode]
    exact (Nat.le_add_left _ _).trans hle
  size_eq := by
    have hlen := ho.length_payload
    rw [Attr.encoded, size_encode (by rw [hlen]; exact h), length_encode]
  pad_length := by
    rw [Attr.encoded, length_encode, align_of_dvd (align_mod _)]
    rfl

theorem exists_records {as : List Attr} (h : ∀ a ∈ as, a.Owned ∧ align (a.len + 4) < 2 ^ 16) :
    ∃ rs : List rtattr.Record, rs.map Format.Record.bytes = as.map Attr.encoded ∧
      Format.chain rs = (as.map Attr.encoded).flatten := by
  induction as with
  | nil => exact ⟨[], rfl, rfl⟩
  | cons a as ih =>
    obtain ⟨ha, has⟩ := List.forall_mem_cons.1 h
    obtain ⟨rs, hm, hc⟩ := ih has
    refine ⟨a.record ha.1 ha.2 :: rs, ?_, ?_⟩
    · rw [List.map_cons, List.map_cons, hm]
      rfl
    · rw [Format.chain_cons, hc, List.map_cons, List.flatten_cons]
      exact congrArg (· ++ _) (List.append_nil _)

/-- The attributes of a draft are what the cursor knows. -/
theorem Family.cursor_draft (f : Family) {head : Bytes} (area : Bytes)
    (hh : head.length = 12 + f.size)
    (hle : 4 + head.length + area.length ≤ bufferSize) :
    (f.cursor (draft head area)).In (draft head area) ∧
      (f.cursor (draft head area)).rest (draft head area) = area := by
  have hsize : bufferSize = 2048 := rfl
  have hf : align f.size = f.size ∧ align32 (f.size + 16) = f.size + 16 := by
    cases f with
    | link => exact ⟨rfl, rfl⟩
    | addr => exact ⟨rfl, rfl⟩
    | route => exact ⟨rfl, rfl⟩
  have hfield : field (draft head area) 0 4 = 4 + head.length + area.length := by
    have hl : load (written head area ++ zeros (bufferSize - (written head area).length)) 0 4 =
        some (4 + head.length + area.length) := load_written _ (by omega)
    rw [load_eq (by rw [List.length_append, length_written]; omega), ← draft_eq] at hl
    exact Option.some_inj.1 hl
  have hc : f.cursor (draft head area) = ⟨16 + f.size, area.length⟩ := by
    rw [Family.cursor, hf.1, hf.2, hfield]
    congr 1
    omega
  rw [hc]
  refine ⟨⟨?_, by dsimp only; omega⟩, ?_⟩
  · rw [draft_eq, List.length_append, length_written]
    dsimp only
    omega
  · rw [Cursor.rest, draft, List.append_assoc _ area, List.drop_left' (by simp; omega),
      List.take_left' rfl]

/-- What was written is visited in its order, and the first attribute of each category is found. The
readers give it back exactly where the lengths of these are multiples of four. -/
theorem readsBack_iff (f : Family) (head : Bytes) (as : List Attr) (max : Nat) (nlh : Bytes)
    (hh : head.length = 12 + f.size) (h : as.foldlM addattr (draft head []) = some nlh) :
    ReadsBack f max as nlh ↔ ∀ t < max, ∀ a ∈ firstOf as t, a.len % 4 = 0 := by
  have hsize : bufferSize = 2048 := rfl
  have hfs : f.size % 4 = 0 ∧ f.size ≤ 16 := by
    cases f with
    | link => exact ⟨rfl, by decide⟩
    | addr => exact ⟨rfl, by decide⟩
    | route => exact ⟨rfl, by decide⟩
  rw [foldlM_addattr_draft [] as (by omega) rfl (by simp; omega)] at h
  obtain ⟨⟨howned, hroom⟩, hn⟩ := Option.ite_none_right_eq_some.1 h
  rw [List.nil_append] at hn
  cases hn
  have hsmall : ∀ a ∈ as, a.Owned ∧ align (a.len + 4) < 2 ^ 16 := fun a ha =>
    ⟨howned a ha, by have := le_room ha; omega⟩
  obtain ⟨rs, hm, hc⟩ := exists_records hsmall
  have hlen := length_encoded howned
  obtain ⟨hin, hrest⟩ := f.cursor_draft (as.map Attr.encoded).flatten hh
    (by rw [hlen]; simpa using hroom)
  have hrec := Format.records_chain rs Format.not_fits_nil
  rw [List.append_nil, hc, hm] at hrec
  have hp : rtattr.Padded (fun _ => true) (as.map Attr.encoded).flatten := by
    rw [← hc, ← List.append_nil (Format.chain rs)]
    exact (Format.padded_chain rs []).2 (.inr (Format.padded_of_not_fits Format.not_fits_nil))
  rw [← hrest] at hp
  have hexact : (∀ t < max, ∀ a ∈ firstOf as t, a.ReadBack a.encoded) ↔
      ∀ t < max, ∀ a ∈ firstOf as t, a.len % 4 = 0 := by
    refine forall_congr' fun t => forall_congr' fun _ => forall_congr' fun a =>
      forall_congr' fun ha => ?_
    obtain ⟨ho, hl⟩ := hsmall a (List.mem_of_find?_eq_some ha)
    exact Attr.readBack_iff ho hl
  refine ⟨fun hr => hexact.1 hr.exact, fun hr => ⟨?_, ?_, hexact.2 hr⟩⟩
  · rw [Body.visited_eq hin (fun _ => rfl) hp (Nat.lt_succ_self _), hrest, hrec]
  · have hf := parseAttrs_eq max hin hp
    rwa [hrest, hrec] at hf

/-- The message that renames a link to `eth0`. -/
def renameAttrs : List Attr := [.u32 4 1500, .var 3 [101, 116, 104, 48] 4]

theorem readsBack_rename : ReadsBack .link 60 renameAttrs
    (draft (zeros 28) (renameAttrs.map Attr.encoded).flatten) := by
  refine (readsBack_iff .link (zeros 28) renameAttrs 60 _ rfl ?_).2 (by decide)
  rw [foldlM_addattr_draft [] renameAttrs rfl rfl (by decide), if_pos (by decide)]
  rfl

/-- The name `lo` is read back with two zero bytes. -/
theorem readsBack_ne : ¬ ∀ (f : Family) (head : Bytes) (as : List Attr) (max : Nat) (nlh : Bytes),
    head.length = 12 + f.size → as.foldlM addattr (draft head []) = some nlh →
      ReadsBack f max as nlh := by
  intro h
  have hw : [Attr.var 3 [108, 111] 2].foldlM addattr (draft (zeros 28) []) =
      some (draft (zeros 28) (encode 3 [108, 111])) := by
    rw [foldlM_addattr_draft [] _ rfl rfl (by decide), if_pos (by decide)]
    rfl
  have he : getattrVar (encode 3 [108, 111]) = some [108, 111] :=
    (h .link (zeros 28) _ 60 _ rfl hw).exact 3 (by decide) _ rfl
  exact absurd he (by decide)

end KataAgent
