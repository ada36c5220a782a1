import KataAgent.Message
import KataAgent.Records

namespace KataAgent
open Fallible Records
set_option autoImplicit true

def hexDigits : List Char := "0123456789ABCDEF".toList

def hexDigit (n : Nat) : Char := hexDigits.getD n '0'

/-- `{:X}` of a byte. -/
def upperHex (b : UInt8) : List Char :=
  if b.toNat < 16 then [hexDigit b.toNat] else [hexDigit (b.toNat / 16), hexDigit (b.toNat % 16)]

/-- `{:0<2X}` of a byte: the digits are on the left, and the zeros fill up behind them. -/
def leftHex (b : UInt8) : List Char :=
  upperHex b ++ List.replicate (2 - (upperHex b).length) '0'

/-- The first byte, and the loop that pushes the others with a separator in front. -/
def separated (sep : Char) (field : UInt8 → List Char) : Bytes → List Char
  | [] => []
  | b :: bs => bs.foldl (fun a b => a ++ sep :: field b) (field b)

/-- `format_address`, with the text of an `Ipv6Addr` left open. -/
def formatAddress (ipv6 : Bytes → String) (addr : Bytes) : Outcome ErrorKind String :=
  if addr.length = 4 then
    .ok (String.ofList (separated '.' (fun b => (toString b.toNat).toList) addr))
  else if addr.length = 6 then .ok (String.ofList (separated ':' leftHex addr))
  else if addr.length = 16 then .ok (ipv6 addr)
  else .err (.nix .EINVAL)

/-- What the pattern of `find_link_by_hwaddr` reads from six fields of two digits each. -/
def ScansFields (scan : String → Option Bytes) : Prop :=
  ∀ ds : List (Fin 16 × Fin 16), ds.length = 6 →
    scan (String.ofList ([':'].intercalate (ds.map fun d => [hexDigit d.1, hexDigit d.2]))) =
      some (ds.map fun d => UInt8.ofNat (16 * d.1 + d.2))

/-- The two digits that are printed for a byte. -/
def printed (b : UInt8) : Fin 16 × Fin 16 :=
  if h : b.toNat < 16 then (⟨b.toNat, h⟩, 0)
  else (⟨b.toNat / 16, Nat.div_lt_of_lt_mul b.toNat_lt⟩, ⟨b.toNat % 16, Nat.mod_lt _ (by decide)⟩)

theorem leftHex_eq (b : UInt8) : leftHex b = [hexDigit (printed b).1, hexDigit (printed b).2] := by
  unfold leftHex upperHex printed
  by_cases h : b.toNat < 16
  · rw [if_pos h, dif_pos h]
    rfl
  · rw [if_neg h, dif_neg h]
    rfl

theorem intercalate_append (sep a x : List Char) (l : List (List Char)) :
    sep.intercalate ((a ++ x) :: l) = a ++ sep.intercalate (x :: l) := by
  cases l with
  | nil => simp
  | cons y l => simp

theorem separated_eq (sep : Char) (field : UInt8 → List Char) (addr : Bytes) :
    separated sep field addr = [sep].intercalate (addr.map field) := by
  have hpush (bs : Bytes) (a : List Char) : bs.foldl (fun a b => a ++ sep :: field b) a =
      [sep].intercalate (a :: bs.map field) := by
    induction bs generalizing a with
    | nil => simp
    | cons c bs ih =>
      rw [List.foldl_cons, ih, List.append_cons, intercalate_append, List.map_cons,
        List.intercalate_cons_cons]
  cases addr with
  | nil => rfl
  | cons b bs => exact hpush bs (field b)

/-- The value of the digits that are printed for a byte. -/
def readBack (b : UInt8) : UInt8 := UInt8.ofNat (16 * (printed b).1 + (printed b).2)

theorem readBack_eq_iff (b : UInt8) : readBack b = b ↔ b = 0 ∨ 16 ≤ b.toNat := by
  have hb := b.toNat_lt
  rw [← UInt8.toNat_inj, ← UInt8.toNat_inj, readBack, UInt8.toNat_ofNat', UInt8.toNat_zero, printed]
  by_cases h : b.toNat < 16
  · rw [dif_pos h]
    dsimp only [Fin.val_zero]
    omega
  · rw [dif_neg h]
    dsimp only
    omega

theorem scan_formatAddress (ipv6 : Bytes → String) {scan : String → Option Bytes}
    (hs : ScansFields scan) {addr : Bytes} (hl : addr.length = 6) :
    ∃ text, formatAddress ipv6 addr = .ok text ∧
      scan text = some (addr.map readBack) := by
  refine ⟨_, by rw [formatAddress, if_neg (by omega), if_pos hl], ?_⟩
  have h := hs (addr.map printed) (by rw [List.length_map, hl])
  rw [List.map_map, List.map_map] at h
  rw [separated_eq, funext leftHex_eq]
  exact h

/-- Each byte has two digits, or is zero. -/
def TwoDigits (addr : Bytes) : Prop := ∀ b ∈ addr, b = 0 ∨ 16 ≤ b.toNat

theorem map_readBack_eq_iff (addr : Bytes) : addr.map readBack = addr ↔ TwoDigits addr := by
  rw [TwoDigits]
  induction addr with
  | nil => exact iff_of_true rfl nofun
  | cons b bs ih => rw [List.map_cons, List.cons.injEq, readBack_eq_iff, ih, List.forall_mem_cons]

/-- A hardware address comes back exactly when each of its bytes is printed with digits of its own;
among such addresses the text says which one it is. -/
theorem hwaddr_round_trip_iff (ipv6 : Bytes → String) (scan : String → Option Bytes)
    (hs : ScansFields scan) (addr : Bytes) (hl : addr.length = 6) :
    ((∃ text, formatAddress ipv6 addr = .ok text ∧ scan text = some addr) ↔ TwoDigits addr) ∧
    (TwoDigits addr → ∀ other : Bytes, other.length = 6 → TwoDigits other →
      formatAddress ipv6 other = formatAddress ipv6 addr → other = addr) := by
  obtain ⟨text, hf, ht⟩ := scan_formatAddress ipv6 hs hl
  refine ⟨?_, fun ha other hlo ho he => ?_⟩
  · rw [← map_readBack_eq_iff]
    constructor
    · rintro ⟨text', hf', ht'⟩
      cases hf.symm.trans hf'
      exact Option.some_inj.1 (ht.symm.trans ht')
    · intro hm
      exact ⟨text, hf, by rw [ht, hm]⟩
  · obtain ⟨text', hf', ht'⟩ := scan_formatAddress ipv6 hs hlo
    rw [hf, hf'] at he
    cases he
    rw [← (map_readBack_eq_iff addr).2 ha, ← (map_readBack_eq_iff other).2 ho]
    exact Option.some_inj.1 (ht'.symm.trans ht)

theorem idxOf_hexDigit (n : Fin 16) : hexDigits.idxOf (hexDigit n) = n := by
  revert n
  decide

theorem colon_ne_hexDigit (n : Fin 16) : ':' ≠ hexDigit n := by
  revert n
  decide

/-- A scanner for texts of six fields. -/
def scanHex (text : String) : Option Bytes :=
  let fields := text.toList.splitOn ':'
  if fields.length = 6 then
    some (fields.map fun f => UInt8.ofNat (f.foldl (fun n c => 16 * n + hexDigits.idxOf c) 0))
  else none

theorem scanHex_fields : ScansFields scanHex := by
  intro ds hl
  have hsplit : ([':'].intercalate (ds.map fun d => [hexDigit d.1, hexDigit d.2])).splitOn ':' =
      ds.map fun d => [hexDigit d.1, hexDigit d.2] := by
    refine List.splitOn_intercalate ':' ?_ ?_
    · intro f hf
      obtain ⟨d, -, rfl⟩ := List.mem_map.1 hf
      simp [colon_ne_hexDigit]
    · intro hn
      rw [List.map_eq_nil_iff.1 hn] at hl
      cases hl
  rw [scanHex, String.toList_ofList, hsplit, if_pos (by rw [List.length_map, hl]), List.map_map]
  congr 1
  refine List.map_congr_left fun d _ => ?_
  simp [idxOf_hexDigit]

def virtualAddress : Bytes := [0x52, 0x54, 0, 0x12, 0x34, 0x56]

theorem hwaddr_round_trip_virtual :
    ((∃ text, formatAddress (fun _ => "") virtualAddress = .ok text ∧
      scanHex text = some virtualAddress) ↔ TwoDigits virtualAddress) ∧
    (TwoDigits virtualAddress → ∀ other : Bytes, other.length = 6 → TwoDigits other →
      formatAddress (fun _ => "") other = formatAddress (fun _ => "") virtualAddress →
        other = virtualAddress) :=
  hwaddr_round_trip_iff (fun _ => "") scanHex scanHex_fields virtualAddress rfl

/-- `02:42:AC:11:11:11` is printed as `20:42:AC:11:11:11`, which is another address. -/
theorem hwaddr_texts_meet : ¬ ∀ (ipv6 : Bytes → String) (addr other : Bytes), addr.length = 6 →
    other.length = 6 → formatAddress ipv6 addr = formatAddress ipv6 other → addr = other := by
  intro h
  have he := h (fun _ => "") [0x02, 0x42, 0xAC, 0x11, 0x11, 0x11]
    [0x20, 0x42, 0xAC, 0x11, 0x11, 0x11] rfl rfl rfl
  exact absurd he (by decide)

end KataAgent
