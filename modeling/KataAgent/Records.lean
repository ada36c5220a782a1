import Mathlib.Data.List.TakeWhile
import Mathlib.Algebra.BigOperators.Group.List.Basic
import Mathlib.Algebra.Ring.Nat

namespace Records
set_option autoImplicit true

abbrev Bytes := List UInt8

/-- The number that the bytes are in little-endian order. -/
def le : Bytes → Nat
  | [] => 0
  | b :: bs => b.toNat + 256 * le bs

/-- The lowest `width` bytes of a number. -/
def leBytes : Nat → Nat → Bytes
  | 0, _ => []
  | width + 1, n => UInt8.ofNat n :: leBytes width (n / 256)

@[simp] theorem length_leBytes : (leBytes width n).length = width := by
  induction width generalizing n with
  | zero => rfl
  | succ width ih => rw [leBytes, List.length_cons, ih]

theorem le_leBytes (width n : Nat) : le (leBytes width n) = n % 256 ^ width := by
  induction width generalizing n with
  | zero => rw [Nat.pow_zero, Nat.mod_one]; rfl
  | succ width ih =>
    have hp : 256 ^ (width + 1) = 256 * 256 ^ width := Nat.pow_succ'
    rw [leBytes, le, ih, hp, Nat.mod_mul, UInt8.toNat_ofNat']

theorem le_leBytes_of_lt (h : n < 256 ^ width) : le (leBytes width n) = n := by
  rw [le_leBytes, Nat.mod_eq_of_lt h]

theorem le_lt (bs : Bytes) : le bs < 256 ^ bs.length := by
  induction bs with
  | nil => exact Nat.one_pos
  | cons b bs ih =>
    have hb := b.toNat_lt
    rw [le, List.length_cons, Nat.pow_succ']
    omega

/-- The number at a place in the bytes. -/
def field (b : Bytes) (off width : Nat) : Nat := le ((b.drop off).take width)

/-- A read of `width` bytes. It must lie in the buffer. -/
def load (b : Bytes) (off width : Nat) : Option Nat :=
  if off + width ≤ b.length then some (field b off width) else none

theorem load_eq (h : off + width ≤ b.length) : load b off width = some (field b off width) :=
  if_pos h

theorem field_take (h : off + width ≤ n) : field (b.take n) off width = field b off width := by
  unfold field
  rw [List.drop_take, List.take_take, Nat.min_eq_left (by omega)]

/-- A write. It must lie in the buffer. -/
def store (b : Bytes) (off : Nat) (data : Bytes) : Option Bytes :=
  if off + data.length ≤ b.length then some (b.take off ++ data ++ b.drop (off + data.length))
  else none

theorem store_append (ho : off = x.length) (hd : data.length = y.length) :
    store (x ++ (y ++ z)) off data = some (x ++ (data ++ z)) := by
  rw [store, if_pos (by rw [List.length_append, List.length_append]; omega), ho, List.take_left,
    List.drop_append, List.drop_eq_nil_of_le (by omega), Nat.add_sub_cancel_left, hd,
    List.drop_left, List.nil_append, List.append_assoc]

theorem store_eq_none (h : b.length < off + data.length) : store b off data = none :=
  if_neg (Nat.not_le_of_lt h)

def align (n : Nat) : Nat := (n + 3) / 4 * 4

/-- The same in 32-bit arithmetic. -/
def align32 (n : Nat) : Nat := (n + 3) % 2 ^ 32 / 4 * 4

theorem le_align (n : Nat) : n ≤ align n := by
  rw [align]
  omega

theorem align_of_dvd (h : n % 4 = 0) : align n = n := by
  rw [align]
  omega

theorem align_lt (n : Nat) : align n < n + 4 := by
  rw [align]
  omega

theorem align32_eq (h : align n < 2 ^ 32) : align32 n = align n := by
  rw [align] at h
  unfold align32 align
  omega

/-- The last three numbers are rounded up to zero. -/
theorem align32_eq_zero (hn : n < 2 ^ 32) (h : ¬ align n < 2 ^ 32) : align32 n = 0 := by
  rw [align] at h
  unfold align32
  omega

/-- Records that follow one another, each padded to a multiple of four bytes: a header, which begins
with the length of the record, and a payload. -/
structure Format where
  header : Nat
  width : Nat
  width_le : width ≤ header
  width_le_four : width ≤ 4
  header_pos : 0 < header

variable {F : Format}

/-- The length that the record at the start of the bytes claims. -/
def Format.size (F : Format) (b : Bytes) : Nat := le (b.take F.width)

/-- The bytes start with a whole record. Its padding may be missing. -/
def Format.Fits (F : Format) (b : Bytes) : Prop :=
  F.header ≤ b.length ∧ F.header ≤ F.size b ∧ F.size b ≤ b.length

instance : Decidable (Format.Fits F b) := inferInstanceAs (Decidable (_ ∧ _))

theorem Format.size_lt (F : Format) (b : Bytes) : F.size b < 2 ^ 32 := by
  have h := le_lt (b.take F.width)
  have hw : 256 ^ (b.take F.width).length ≤ 256 ^ 4 :=
    Nat.pow_le_pow_right (by decide) ((List.length_take_le _ _).trans F.width_le_four)
  exact h.trans_le hw

theorem Format.size_take (h : F.width ≤ n) : F.size (b.take n) = F.size b := by
  unfold Format.size
  rw [List.take_take, Nat.min_eq_left h]

/-- The record at the start of the bytes. -/
def Format.first (F : Format) (b : Bytes) : Bytes := b.take (F.size b)

/-- What follows the record at the start and its padding. -/
def Format.next (F : Format) (b : Bytes) : Bytes := b.drop (align (F.size b))

theorem Format.Fits.length_first (h : F.Fits b) : (F.first b).length = F.size b := by
  rw [Format.first, List.length_take, Nat.min_eq_left h.2.2]

theorem Format.Fits.size_first (h : F.Fits b) : F.size (F.first b) = F.size b :=
  Format.size_take (F.width_le.trans h.2.1)

/-- A read inside the record reads it. -/
theorem Format.Fits.load_first (h : F.Fits b) (hle : off + w ≤ F.size b) :
    load b off w = some (field (F.first b) off w) := by
  rw [load_eq (hle.trans h.2.2), Format.first, field_take hle]

theorem Format.Fits.length_next (h : F.Fits b) : (F.next b).length < b.length := by
  have hp := F.header_pos
  have ha := le_align (F.size b)
  have hs := h.2
  rw [Format.next, List.length_drop]
  omega

def Format.chop (F : Format) : Nat → Bytes → List Bytes
  | 0, _ => []
  | n + 1, b => if F.Fits b then F.first b :: F.chop n (F.next b) else []

/-- The records that follow one another from the start of the bytes. -/
def Format.records (F : Format) (b : Bytes) : List Bytes := F.chop b.length b

theorem Format.chop_eq (h : b.length ≤ n) : F.chop n b = F.records b := by
  induction n using Nat.strong_induction_on generalizing b with
  | _ n ih =>
    rw [Format.records]
    cases n with
    | zero => rw [Nat.le_zero.1 h]
    | succ n =>
      by_cases hf : F.Fits b
      · have hn := hf.length_next
        obtain ⟨k, hk⟩ := Nat.exists_eq_succ_of_ne_zero (show b.length ≠ 0 by omega)
        rw [hk, Format.chop, Format.chop, if_pos hf, if_pos hf,
          ih n (Nat.lt_succ_self n) (by omega),
          ih k (by omega) (by omega)]
      · rw [Format.chop, if_neg hf]
        cases b.length with
        | zero => rfl
        | succ k => rw [Format.chop, if_neg hf]

theorem Format.records_of_fits (h : F.Fits b) :
    F.records b = F.first b :: F.records (F.next b) := by
  have hn := h.length_next
  obtain ⟨k, hk⟩ := Nat.exists_eq_succ_of_ne_zero (show b.length ≠ 0 by omega)
  rw [Format.records, hk, Format.chop, if_pos h, Format.chop_eq (by omega)]

theorem Format.records_of_not_fits (h : ¬ F.Fits b) : F.records b = [] := by
  rw [Format.records]
  cases b.length with
  | zero => rfl
  | succ k => rw [Format.chop, if_neg h]

theorem Format.mem_records (h : r ∈ F.records b) : F.header ≤ r.length ∧ F.size r = r.length := by
  induction hn : b.length using Nat.strong_induction_on generalizing b with
  | _ n ih =>
    by_cases hf : F.Fits b
    · rw [Format.records_of_fits hf] at h
      rcases List.mem_cons.1 h with rfl | h
      · rw [hf.size_first, hf.length_first]
        exact ⟨hf.2.1, rfl⟩
      · exact ih _ (hn ▸ hf.length_next) h rfl
    · rw [Format.records_of_not_fits hf] at h
      cases h

/-- The bytes that records take with their padding. -/
def span (rs : List Bytes) : Nat := (rs.map fun r => align r.length).sum

@[simp] theorem span_nil : span [] = 0 := rfl

@[simp] theorem span_cons (r : Bytes) (rs : List Bytes) :
    span (r :: rs) = align r.length + span rs := by
  simp [span]

theorem span_append (rs rs' : List Bytes) : span (rs ++ rs') = span rs + span rs' := by
  simp [span]

/-- The leading records for which `past` holds are there with all of their padding. -/
def Format.Padded (F : Format) (past : Bytes → Bool) (b : Bytes) : Prop :=
  span ((F.records b).takeWhile past) ≤ b.length

instance : Decidable (Format.Padded F past b) := inferInstanceAs (Decidable (_ ≤ _))

theorem Format.padded_of_not_fits (h : ¬ F.Fits b) : F.Padded past b := by
  rw [Format.Padded, Format.records_of_not_fits h]
  exact Nat.zero_le _

theorem Format.padded_of_stop (h : F.Fits b) (ho : past (F.first b) = false) : F.Padded past b := by
  rw [Format.Padded, Format.records_of_fits h, List.takeWhile_cons, ho]
  exact Nat.zero_le _

theorem Format.padded_iff (h : F.Fits b) (ho : past (F.first b) = true) :
    F.Padded past b ↔ align (F.size b) ≤ b.length ∧ F.Padded past (F.next b) := by
  unfold Format.Padded
  rw [Format.records_of_fits h, List.takeWhile_cons, ho, if_pos rfl, span_cons, h.length_first,
    Format.next, List.length_drop]
  omega

theorem Format.Padded.of_all (h : F.Padded (fun _ => true) b) : F.Padded past b := by
  refine Nat.le_trans ?_ h
  rw [List.takeWhile_eq_self_iff.2 fun _ _ => rfl]
  nth_rewrite 2 [← List.takeWhile_append_dropWhile (p := past) (l := F.records b)]
  rw [span_append]
  exact Nat.le_add_right _ _

/-- A record with the padding that follows it. -/
structure Format.Record (F : Format) where
  bytes : Bytes
  pad : Bytes
  header_le : F.header ≤ bytes.length
  size_eq : F.size bytes = bytes.length
  pad_length : bytes.length + pad.length = align bytes.length

def Format.Record.padded (r : F.Record) : Bytes := r.bytes ++ r.pad

/-- Records laid out one after the other. -/
def Format.chain (rs : List F.Record) : Bytes := (rs.map Format.Record.padded).flatten

@[simp] theorem Format.chain_nil : Format.chain ([] : List F.Record) = [] := rfl

@[simp] theorem Format.chain_cons (r : F.Record) (rs : List F.Record) :
    Format.chain (r :: rs) = r.padded ++ Format.chain rs := rfl

theorem Format.Record.length_padded (r : F.Record) : r.padded.length = align r.bytes.length := by
  rw [Format.Record.padded, List.length_append, r.pad_length]

theorem Format.Record.size_append (r : F.Record) (b : Bytes) :
    F.size (r.padded ++ b) = r.bytes.length := by
  have h := F.width_le.trans r.header_le
  rw [Format.size]
  rw [Format.Record.padded, List.append_assoc, List.take_append_of_le_length h]
  exact r.size_eq

theorem Format.Record.fits (r : F.Record) (b : Bytes) : F.Fits (r.padded ++ b) := by
  have h := r.header_le
  have hp := r.pad_length
  have ha := le_align r.bytes.length
  refine ⟨?_, ?_, ?_⟩
  · rw [List.length_append, r.length_padded]
    omega
  · rw [r.size_append]
    exact h
  · rw [r.size_append, List.length_append, r.length_padded]
    omega

theorem Format.Record.first_append (r : F.Record) (b : Bytes) :
    F.first (r.padded ++ b) = r.bytes := by
  rw [Format.first, r.size_append, Format.Record.padded, List.append_assoc, List.take_left]

theorem Format.Record.next_append (r : F.Record) (b : Bytes) : F.next (r.padded ++ b) = b := by
  rw [Format.next, r.size_append, ← r.length_padded, List.drop_left]

/-- What has been laid out is found again, up to bytes that start with no record. -/
theorem Format.records_chain (rs : List F.Record) (h : ¬ F.Fits rest) :
    F.records (Format.chain rs ++ rest) = rs.map Format.Record.bytes := by
  induction rs with
  | nil => exact Format.records_of_not_fits h
  | cons r rs ih =>
    rw [Format.chain_cons, List.append_assoc, Format.records_of_fits (r.fits _), r.first_append,
      r.next_append, ih]
    rfl

theorem Format.length_chain (rs : List F.Record) :
    (Format.chain rs).length = span (rs.map Format.Record.bytes) := by
  induction rs with
  | nil => rfl
  | cons r rs ih =>
    rw [Format.chain_cons, List.length_append, ih, r.length_padded, List.map_cons, span_cons]

theorem Format.not_fits_nil : ¬ F.Fits [] := fun h =>
  absurd (F.header_pos.trans_le h.1) (Nat.lt_irrefl _)

theorem Format.padded_chain (rs : List F.Record) (b : Bytes) :
    F.Padded past (Format.chain rs ++ b) ↔ rs.any (fun r => !past r.bytes) ∨ F.Padded past b := by
  induction rs with
  | nil => simp
  | cons r rs ih =>
    rw [Format.chain_cons, List.append_assoc, List.any_cons]
    cases ho : past r.bytes with
    | false =>
      have hp := Format.padded_of_stop (r.fits (Format.chain rs ++ b))
        (by rw [r.first_append]; exact ho)
      exact iff_of_true hp (.inl rfl)
    | true =>
      rw [Format.padded_iff (r.fits _) (by rw [r.first_append]; exact ho), r.next_append, ih,
        r.size_append]
      rw [and_iff_right (by rw [List.length_append, r.length_padded]; omega)]
      rfl

/-- Bytes whose records are all padded are a chain, and a rest that starts with no record. -/
theorem Format.Padded.chain (h : F.Padded (fun _ => true) b) :
    ∃ (rs : List F.Record) (rest : Bytes), b = Format.chain rs ++ rest ∧ ¬ F.Fits rest := by
  induction hn : b.length using Nat.strong_induction_on generalizing b with
  | _ n ih =>
    by_cases hf : F.Fits b
    · obtain ⟨ha, hp⟩ := (Format.padded_iff hf rfl).1 h
      obtain ⟨rs, rest, hb, hr⟩ := ih _ (hn ▸ hf.length_next) hp rfl
      have hle := le_align (F.size b)
      refine ⟨⟨F.first b, (b.drop (F.size b)).take (align (F.size b) - F.size b), ?_, ?_, ?_⟩ :: rs,
        rest, ?_, hr⟩
      · rw [hf.length_first]
        exact hf.2.1
      · rw [hf.size_first, hf.length_first]
      · rw [hf.length_first, List.length_take, List.length_drop]
        omega
      · rw [Format.chain_cons, List.append_assoc, ← hb]
        change b = b.take _ ++ (b.drop _).take _ ++ b.drop _
        rw [← List.take_add, Nat.add_sub_cancel' hle, List.take_append_drop]
    · exact ⟨[], b, rfl, hf⟩

end Records
