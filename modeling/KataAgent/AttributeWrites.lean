import KataAgent.Attributes

namespace KataAgent
open Records
set_option autoImplicit true

/-- `RTA_LENGTH`, which rounds the length with the header up. -/
def rtaLength (len : Nat) : Nat := align32 (len % 2 ^ 32 + 4)

/-- `NLMSG_TAIL`, as a place in the message. -/
def nlmsgTail (nlh : Bytes) : Option Nat := (load nlh 0 4).map align32

/-- The last statement of the writers: `nlmsg_len` goes on by the attribute. -/
def grow (nlh : Bytes) (alen : Nat) : Option Bytes := do
  let len ← load nlh 0 4
  store nlh 0 (leBytes 4 (align32 len + align32 alen))

/-- `memcpy` of `len` bytes, unless there are none. Behind the pointer that it reads from, `data`
belongs to the caller. -/
def copyFrom (b : Bytes) (off : Nat) (data : Bytes) (len : Nat) : Option Bytes :=
  if 0 < len then
    if len ≤ data.length then store b off (data.take len) else none
  else some b

def addattrVar (nlh : Bytes) (cat : UInt16) (data : Bytes) (len : Nat) : Option Bytes := do
  let rta ← nlmsgTail nlh
  let alen := rtaLength len % 2 ^ 16
  let nlh ← store nlh (rta + 2) (leBytes 2 cat.toNat)
  let nlh ← store nlh rta (leBytes 2 alen)
  let nlh ← copyFrom nlh (rta + 4) data len
  grow nlh alen

/-- `addattr_size`. No value stands for the failing assertion too. -/
def addattrSize (nlh : Bytes) (cat : UInt16) (val size : Nat) : Option Bytes := do
  if ¬ (size = 1 ∨ size = 2 ∨ size = 4 ∨ size = 8) then none
  let rta ← nlmsgTail nlh
  let nlh ← store nlh (rta + 2) (leBytes 2 cat.toNat)
  let nlh ← store nlh (rta + 4) (leBytes size val)
  let alen := rtaLength size % 2 ^ 16
  let nlh ← store nlh rta (leBytes 2 alen)
  grow nlh alen

def addattr8 (nlh : Bytes) (cat : UInt16) (val : UInt8) : Option Bytes :=
  addattrSize nlh cat val.toNat 1

def addattr16 (nlh : Bytes) (cat : UInt16) (val : UInt16) : Option Bytes :=
  addattrSize nlh cat val.toNat 2

def addattr32 (nlh : Bytes) (cat : UInt16) (val : UInt32) : Option Bytes :=
  addattrSize nlh cat val.toNat 4

def addattr64 (nlh : Bytes) (cat : UInt16) (val : UInt64) : Option Bytes :=
  addattrSize nlh cat val.toNat 8

/-- `RTA_PAYLOAD`. -/
def rtaPayload (rta : Bytes) : Option Nat := (load rta 0 2).map fun n => (n + 2 ^ 32 - 4) % 2 ^ 32

def getattrVar (rta : Bytes) : Option Bytes := do
  let alen ← rtaPayload rta
  if 4 + alen ≤ rta.length then some ((rta.drop 4).take alen) else none

def getattrSize (rta : Bytes) : Option Nat := do
  let alen ← rtaPayload rta
  if alen = 1 ∨ alen = 2 ∨ alen = 4 ∨ alen = 8 then load rta 4 alen else none

/-- The common body of `getattr8` to `getattr64`. -/
def getattrExact (rta : Bytes) (size : Nat) : Option Nat := do
  let alen ← rtaPayload rta
  if alen = size then getattrSize rta else none

def getattr8 (rta : Bytes) : Option UInt8 := (getattrExact rta 1).map UInt8.ofNat

def getattr16 (rta : Bytes) : Option UInt16 := (getattrExact rta 2).map UInt16.ofNat

def getattr32 (rta : Bytes) : Option UInt32 := (getattrExact rta 4).map UInt32.ofNat

def getattr64 (rta : Bytes) : Option UInt64 := (getattrExact rta 8).map UInt64.ofNat

/-- One call of a writer. -/
inductive Attr where
  | var (cat : UInt16) (data : Bytes) (len : Nat)
  | u8 (cat : UInt16) (val : UInt8)
  | u16 (cat : UInt16) (val : UInt16)
  | u32 (cat : UInt16) (val : UInt32)
  | u64 (cat : UInt16) (val : UInt64)
  deriving DecidableEq

def addattr (nlh : Bytes) : Attr → Option Bytes
  | .var cat data len => addattrVar nlh cat data len
  | .u8 cat val => addattr8 nlh cat val
  | .u16 cat val => addattr16 nlh cat val
  | .u32 cat val => addattr32 nlh cat val
  | .u64 cat val => addattr64 nlh cat val

def Attr.cat : Attr → UInt16
  | .var cat _ _ | .u8 cat _ | .u16 cat _ | .u32 cat _ | .u64 cat _ => cat

def Attr.len : Attr → Nat
  | .var _ _ len => len
  | .u8 _ _ => 1
  | .u16 _ _ => 2
  | .u32 _ _ => 4
  | .u64 _ _ => 8

/-- The bytes that the writer copies. -/
def Attr.payload : Attr → Bytes
  | .var _ data len => data.take len
  | .u8 _ val => leBytes 1 val.toNat
  | .u16 _ val => leBytes 2 val.toNat
  | .u32 _ val => leBytes 4 val.toNat
  | .u64 _ val => leBytes 8 val.toNat

/-- The writer reads only what belongs to its caller. -/
def Attr.Owned : Attr → Prop
  | .var _ data len => len ≤ data.length
  | _ => True

instance : (a : Attr) → Decidable a.Owned
  | .var _ data len => inferInstanceAs (Decidable (len ≤ data.length))
  | .u8 _ _ | .u16 _ _ | .u32 _ _ | .u64 _ _ => inferInstanceAs (Decidable True)

theorem Attr.Owned.length_payload {a : Attr} (h : a.Owned) : a.payload.length = a.len := by
  cases a with
  | var cat data len => exact (List.length_take).trans (Nat.min_eq_left h)
  | u8 => exact length_leBytes
  | u16 => exact length_leBytes
  | u32 => exact length_leBytes
  | u64 => exact length_leBytes

def zeros (n : Nat) : Bytes := List.replicate n 0

@[simp] theorem length_zeros : (zeros n).length = n := List.length_replicate

theorem zeros_add (m n : Nat) : zeros (m + n) = zeros m ++ zeros n := List.replicate_add _ _ _

/-- The size of the buffers for requests. -/
def bufferSize : Nat := 2048

/-- A message that is being written: its length, the rest of its headers, the attributes so far, and
bytes that are zero still. -/
def draft (head area : Bytes) : Bytes :=
  leBytes 4 (4 + head.length + area.length) ++ head ++ area ++
    zeros (bufferSize - (4 + head.length + area.length))

/-- An attribute as the writers leave it. Its length covers the bytes that it is filled up with. -/
def encode (cat : UInt16) (payload : Bytes) : Bytes :=
  leBytes 2 (align (payload.length + 4)) ++ leBytes 2 cat.toNat ++ payload ++
    zeros (align payload.length - payload.length)

section
variable {head area x : Bytes} {n k off len : Nat}

theorem store_zeros {data : Bytes} (ho : off = x.length) (hd : data.length ≤ k) :
    store (x ++ zeros k) off data = some (x ++ (data ++ zeros (k - data.length))) := by
  have hz : zeros k = zeros data.length ++ zeros (k - data.length) := by
    rw [← zeros_add, Nat.add_sub_cancel' hd]
  rw [hz]
  exact store_append ho length_zeros.symm

theorem store_cat {cat : Nat} (hk : 4 ≤ k) :
    store (x ++ zeros k) (x.length + 2) (leBytes 2 cat) =
      some (x ++ (zeros 2 ++ (leBytes 2 cat ++ zeros (k - 4)))) := by
  have hz : zeros k = zeros 2 ++ zeros (k - 2) := by
    rw [← zeros_add, Nat.add_sub_cancel' (by omega)]
  rw [hz, ← List.append_assoc, store_zeros (by simp) (by simp; omega), List.append_assoc,
    length_leBytes, Nat.sub_sub]

theorem store_data {l c data : Bytes} (hl : l.length = 2) (hc : c.length = 2)
    (hd : data.length ≤ k) : store (x ++ (l ++ (c ++ zeros k))) (x.length + 4) data =
      some (x ++ (l ++ (c ++ (data ++ zeros (k - data.length))))) := by
  have h : store (x ++ (l ++ c) ++ zeros k) (x.length + 4) data =
      some (x ++ (l ++ c) ++ (data ++ zeros (k - data.length))) :=
    store_zeros (by simp [hl, hc]) hd
  rwa [List.append_assoc, List.append_assoc, List.append_assoc, List.append_assoc] at h

/-- What has been written of a message. -/
def written (head area : Bytes) : Bytes := leBytes 4 (4 + head.length + area.length) ++ head ++ area

theorem length_written (head area : Bytes) :
    (written head area).length = 4 + head.length + area.length := by
  rw [written, List.length_append, List.length_append, length_leBytes]

theorem load_written (rest : Bytes) (hn : 4 + head.length + area.length < 2 ^ 32) :
    load (written head area ++ rest) 0 4 = some (4 + head.length + area.length) := by
  rw [load_eq (by rw [List.length_append, length_written]; omega), field, List.drop_zero, written,
    List.append_assoc, List.append_assoc, List.take_left' length_leBytes, le_leBytes_of_lt hn]

theorem grow_written {rest : Bytes} {alen : Nat} (hh : (4 + head.length) % 4 = 0)
    (ha : area.length % 4 = 0) (hl : alen % 4 = 0)
    (hn : 4 + head.length + area.length + alen < 2 ^ 32) :
    grow (written head area ++ rest) alen =
      some (leBytes 4 (4 + head.length + area.length + alen) ++ (head ++ (area ++ rest))) := by
  have ha1 : align32 (4 + head.length + area.length) = 4 + head.length + area.length := by
    have he := align_of_dvd (n := 4 + head.length + area.length) (by omega)
    rw [align32_eq (by omega), he]
  have ha2 : align32 alen = alen := by
    have he := align_of_dvd hl
    rw [align32_eq (by omega), he]
  rw [grow, load_written _ (by omega), Option.bind_eq_bind, Option.bind_some, ha1, ha2, written,
    List.append_assoc, List.append_assoc]
  exact store_append (x := []) (y := leBytes 4 _) rfl (by rw [length_leBytes, length_leBytes])

theorem draft_eq : draft head area =
    written head area ++ zeros (bufferSize - (written head area).length) := by
  rw [length_written]
  rfl

theorem length_encode {cat : UInt16} {d : Bytes} :
    (encode cat d).length = align (d.length + 4) := by
  have hle := le_align d.length
  simp only [encode, List.length_append, length_leBytes, length_zeros]
  unfold align at hle ⊢
  omega

/-- A draft with one more attribute, as the stores leave it. -/
theorem draft_encode {cat : UInt16} {d : Bytes}
    (hfit : 4 + head.length + area.length + align (d.length + 4) ≤ bufferSize) :
    leBytes 4 (4 + head.length + area.length + align (d.length + 4)) ++ (head ++ (area ++
      (leBytes 2 (align (d.length + 4)) ++ (leBytes 2 cat.toNat ++
        (d ++ zeros (bufferSize - (4 + head.length + area.length) - 4 - d.length)))))) =
    draft head (area ++ encode cat d) := by
  have hal : align (d.length + 4) = 4 + d.length + (align d.length - d.length) := by
    unfold align
    omega
  have hz : zeros (bufferSize - (4 + head.length + area.length) - 4 - d.length) =
      zeros (align d.length - d.length) ++
        zeros (bufferSize - (4 + head.length + (area.length + align (d.length + 4)))) := by
    rw [← zeros_add]
    congr 1
    omega
  rw [hz, draft, List.length_append, length_encode, encode, Nat.add_assoc (4 + head.length)]
  simp only [List.append_assoc]

theorem rtaLength_eq (hl : align (len + 4) ≤ bufferSize) :
    rtaLength len % 2 ^ 16 = align (len + 4) := by
  have hsize : bufferSize = 2048 := rfl
  have hle := le_align (len + 4)
  rw [rtaLength, Nat.mod_eq_of_lt (a := len) (by omega), align32_eq (by omega),
    Nat.mod_eq_of_lt (by omega)]

theorem align_mod (n : Nat) : align n % 4 = 0 := Nat.mul_mod_left _ _

theorem copyFrom_eq {b data : Bytes} (ho : off ≤ b.length) : copyFrom b off data len =
    if len ≤ data.length then store b off (data.take len) else none := by
  rw [copyFrom]
  cases len with
  | zero =>
    rw [if_neg (Nat.lt_irrefl _), if_pos (Nat.zero_le _), List.take_zero, store,
      if_pos (by simpa using ho)]
    simp
  | succ n => rw [if_pos (Nat.succ_pos _)]

theorem nlmsgTail_draft (hh : (4 + head.length) % 4 = 0) (ha : area.length % 4 = 0)
    (hle : 4 + head.length + area.length ≤ bufferSize) :
    nlmsgTail (draft head area) = some (written head area).length := by
  have hsize : bufferSize = 2048 := rfl
  have he := align_of_dvd (n := 4 + head.length + area.length) (by omega)
  rw [nlmsgTail, draft_eq, load_written _ (by omega), Option.map_some, length_written,
    align32_eq (by omega), he]

/-- The store of the payload, and what comes after it. -/
theorem grow_data (cat : UInt16) (d : Bytes) (hh : (4 + head.length) % 4 = 0)
    (ha : area.length % 4 = 0)
    (hfit : 4 + head.length + area.length + align (d.length + 4) ≤ bufferSize) :
    grow (written head area ++ (leBytes 2 (align (d.length + 4)) ++ (leBytes 2 cat.toNat ++
      (d ++ zeros (bufferSize - (written head area).length - 4 - d.length)))))
        (align (d.length + 4)) = some (draft head (area ++ encode cat d)) := by
  have hsize : bufferSize = 2048 := rfl
  rw [grow_written hh ha (align_mod _) (by omega), length_written, draft_encode hfit]

/-- `addattr_var` adds its attribute to a draft exactly when it may read its bytes and has the room.
-/
theorem addattrVar_draft {cat : UInt16} {data : Bytes} (hh : (4 + head.length) % 4 = 0)
    (ha : area.length % 4 = 0) (hle : 4 + head.length + area.length ≤ bufferSize) :
    addattrVar (draft head area) cat data len =
      if len ≤ data.length ∧ 4 + head.length + area.length + align (len + 4) ≤ bufferSize then
        some (draft head (area ++ encode cat (data.take len)))
      else none := by
  have hsize : bufferSize = 2048 := rfl
  have hlw := length_written head area
  have hs := le_align (len + 4)
  have hlt := align_lt (len + 4)
  have hmod := align_mod (len + 4)
  rw [addattrVar, nlmsgTail_draft hh ha hle]
  simp only [Option.bind_eq_bind, Option.bind_some]
  rw [draft_eq]
  by_cases hk : 4 ≤ bufferSize - (written head area).length
  · rw [store_cat hk, Option.bind_some, store_append rfl (by simp), Option.bind_some,
      copyFrom_eq (by simp; omega)]
    by_cases hd : len ≤ data.length
    · have hlen : (data.take len).length = len := (List.length_take).trans (Nat.min_eq_left hd)
      rw [if_pos hd]
      by_cases hfit : 4 + head.length + area.length + align (len + 4) ≤ bufferSize
      · rw [if_pos ⟨hd, hfit⟩, store_data (by simp) (by simp) (by omega), Option.bind_some,
          rtaLength_eq (by omega)]
        have hg := grow_data cat (data.take len) hh ha (by rwa [hlen])
        rw [hlen] at hg ⊢
        exact hg
      · rw [if_neg (fun h => hfit h.2), store_eq_none, Option.bind_none]
        simp only [List.length_append, length_leBytes, length_zeros, hlen]
        omega
    · rw [if_neg hd, Option.bind_none, if_neg (fun h => hd h.1)]
  · rw [store_eq_none (by simp; omega), Option.bind_none, if_neg (by omega)]

/-- So does `addattr_size`. -/
theorem addattrSize_draft {cat : UInt16} {val size : Nat}
    (hs : size = 1 ∨ size = 2 ∨ size = 4 ∨ size = 8) (hh : (4 + head.length) % 4 = 0)
    (ha : area.length % 4 = 0) (hle : 4 + head.length + area.length ≤ bufferSize) :
    addattrSize (draft head area) cat val size =
      if 4 + head.length + area.length + align (size + 4) ≤ bufferSize then
        some (draft head (area ++ encode cat (leBytes size val)))
      else none := by
  have hsize : bufferSize = 2048 := rfl
  have hlw := length_written head area
  have hle4 := le_align (size + 4)
  have hlt := align_lt (size + 4)
  have hmod := align_mod (size + 4)
  rw [addattrSize, if_neg (not_not.2 hs), nlmsgTail_draft hh ha hle]
  simp only [Option.bind_eq_bind, Option.bind_some]
  rw [draft_eq]
  by_cases hk : 4 ≤ bufferSize - (written head area).length
  · rw [store_cat hk, Option.bind_some]
    by_cases hfit : 4 + head.length + area.length + align (size + 4) ≤ bufferSize
    · rw [if_pos hfit, store_data (by simp) (by simp) (by simp; omega), Option.bind_some,
        store_append rfl (by simp), Option.bind_some, rtaLength_eq (by omega)]
      have hg := grow_data cat (leBytes size val) hh ha (by rwa [length_leBytes])
      rw [length_leBytes] at hg ⊢
      exact hg
    · rw [if_neg hfit, store_eq_none, Option.bind_none]
      simp only [List.length_append, length_leBytes, length_zeros]
      omega
  · rw [store_eq_none (by simp; omega), Option.bind_none, if_neg (by omega)]

def Attr.encoded (a : Attr) : Bytes := encode a.cat a.payload

theorem addattr_draft (a : Attr) (hh : (4 + head.length) % 4 = 0) (ha : area.length % 4 = 0)
    (hle : 4 + head.length + area.length ≤ bufferSize) :
    addattr (draft head area) a =
      if a.Owned ∧ 4 + head.length + area.length + align (a.len + 4) ≤ bufferSize then
        some (draft head (area ++ a.encoded))
      else none := by
  cases a with
  | var cat data len => exact addattrVar_draft hh ha hle
  | u8 cat val =>
    refine (addattrSize_draft (.inl rfl) hh ha hle).trans (if_congr ?_ rfl rfl)
    exact (and_iff_right trivial).symm
  | u16 cat val =>
    refine (addattrSize_draft (.inr (.inl rfl)) hh ha hle).trans (if_congr ?_ rfl rfl)
    exact (and_iff_right trivial).symm
  | u32 cat val =>
    refine (addattrSize_draft (.inr (.inr (.inl rfl))) hh ha hle).trans (if_congr ?_ rfl rfl)
    exact (and_iff_right trivial).symm
  | u64 cat val =>
    refine (addattrSize_draft (.inr (.inr (.inr rfl))) hh ha hle).trans (if_congr ?_ rfl rfl)
    exact (and_iff_right trivial).symm

/-- The room that attributes take. -/
def room (as : List Attr) : Nat := (as.map fun a => align (a.len + 4)).sum

@[simp] theorem room_cons {a : Attr} {as : List Attr} :
    room (a :: as) = align (a.len + 4) + room as := by
  simp [room]

theorem room_u32 {cat : UInt16} {val : UInt32} {as : List Attr} :
    room (.u32 cat val :: as) = 8 + room as := by
  rw [room_cons]
  change align (4 + 4) + _ = _
  rfl

theorem room_var {cat : UInt16} {data : Bytes} {as : List Attr} :
    room (.var cat data len :: as) = align (len + 4) + room as := room_cons

@[simp] theorem room_nil : room [] = 0 := rfl

/-- A message is written as a whole exactly when each writer may read its bytes and all of them have
the room. -/
theorem foldlM_addattr_draft (area : Bytes) (as : List Attr) (hh : (4 + head.length) % 4 = 0)
    (ha : area.length % 4 = 0) (hle : 4 + head.length + area.length ≤ bufferSize) :
    as.foldlM addattr (draft head area) =
      if (∀ a ∈ as, a.Owned) ∧ 4 + head.length + area.length + room as ≤ bufferSize then
        some (draft head (area ++ (as.map Attr.encoded).flatten))
      else none := by
  induction as generalizing area with
  | nil =>
    rw [if_pos ⟨nofun, hle⟩, List.map_nil, List.flatten_nil, List.append_nil]
    rfl
  | cons a as ih =>
    rw [List.foldlM_cons, addattr_draft a hh ha hle, room_cons]
    by_cases h : a.Owned ∧ 4 + head.length + area.length + align (a.len + 4) ≤ bufferSize
    · have hlen : (area ++ a.encoded).length = area.length + align (a.len + 4) := by
        rw [List.length_append, Attr.encoded, length_encode, h.1.length_payload]
      have hmod := align_mod (a.len + 4)
      rw [if_pos h, Option.bind_eq_bind, Option.bind_some,
        ih (area ++ a.encoded) (by omega) (by omega), hlen, List.map_cons, List.flatten_cons,
        List.append_assoc]
      refine if_congr ?_ rfl rfl
      rw [List.forall_mem_cons, and_iff_right h.1, Nat.add_assoc, Nat.add_assoc, Nat.add_assoc,
        Nat.add_assoc, Nat.add_assoc]
    · rw [if_neg h, Option.bind_eq_bind, Option.bind_none, if_neg]
      intro hc
      exact h ⟨hc.1 a List.mem_cons_self, by omega⟩

theorem length_encoded {as : List Attr} (h : ∀ a ∈ as, a.Owned) :
    (as.map Attr.encoded).flatten.length = room as := by
  induction as with
  | nil => rfl
  | cons a as ih =>
    obtain ⟨ha, has⟩ := List.forall_mem_cons.1 h
    rw [List.map_cons, List.flatten_cons, List.length_append, ih has, room_cons, Attr.encoded,
      length_encode, ha.length_payload]

theorem le_room {as : List Attr} {a : Attr} (h : a ∈ as) : align (a.len + 4) ≤ room as := by
  induction as with
  | nil => cases h
  | cons b as ih =>
    rw [room_cons]
    rcases List.mem_cons.1 h with rfl | hm
    · exact Nat.le_add_right _ _
    · exact (ih hm).trans (Nat.le_add_left _ _)

end

end KataAgent
