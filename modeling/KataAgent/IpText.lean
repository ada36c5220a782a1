import Mathlib.Data.List.Basic
import Mathlib.Data.List.TakeWhile

namespace IpText
set_option autoImplicit true

/-- The value of a digit. -/
def digit (radix : Nat) (c : Char) : Option Nat :=
  let d :=
    if '0' ≤ c ∧ c ≤ '9' then c.toNat - '0'.toNat
    else if 'a' ≤ c ∧ c ≤ 'z' then c.toNat - 'a'.toNat + 10
    else if 'A' ≤ c ∧ c ≤ 'Z' then c.toNat - 'A'.toNat + 10
    else radix
  if d < radix then some d else none

def isDigit (radix : Nat) (c : Char) : Bool := (digit radix c).isSome

def value (radix : Nat) (ds : List Char) : Nat :=
  ds.foldl (fun n c => radix * n + (digit radix c).getD 0) 0

/-- A number below `bound`, and what follows it. All digits that are there belong to it. -/
def readNumber (radix maxDigits bound : Nat) (zeroPrefix : Bool) (s : List Char) :
    Option (Nat × List Char) :=
  let ds := s.takeWhile (isDigit radix)
  if ds = [] ∨ maxDigits < ds.length ∨ bound ≤ value radix ds ∨
      (zeroPrefix = false ∧ ds.head? = some '0' ∧ 1 < ds.length) then none
  else some (value radix ds, s.dropWhile (isDigit radix))

def readChar (c : Char) : List Char → Option (List Char)
  | [] => none
  | d :: s => if d = c then some s else none

/-- What stands in front of a part that is not the first. -/
def readSeparator (sep : Char) (first : Bool) (s : List Char) : Option (List Char) :=
  if first then some s else readChar sep s

def readIpv4 (s : List Char) : Option (List UInt8 × List Char) := do
  let (a, s) ← readNumber 10 3 256 false s
  let s ← readChar '.' s
  let (b, s) ← readNumber 10 3 256 false s
  let s ← readChar '.' s
  let (c, s) ← readNumber 10 3 256 false s
  let s ← readChar '.' s
  let (d, s) ← readNumber 10 3 256 false s
  some ([UInt8.ofNat a, UInt8.ofNat b, UInt8.ofNat c, UInt8.ofNat d], s)

/-- Groups between colons, at most `limit`. The last two may be an IPv4 address; the `Bool` says
that they are. -/
def readGroups : Nat → Bool → List Char → List UInt8 × Bool × List Char
  | 0, _, s => ([], false, s)
  | limit + 1, first, s =>
    match if limit = 0 then none else (readSeparator ':' first s).bind readIpv4 with
    | some (v4, rest) => (v4, true, rest)
    | none =>
      match (readSeparator ':' first s).bind (readNumber 16 4 65536 true) with
      | none => ([], false, s)
      | some (g, rest) =>
        let r := readGroups limit false rest
        (UInt8.ofNat (g / 256) :: UInt8.ofNat g :: r.1, r.2)

/-- Eight groups, or fewer on both sides of `::`. -/
def readIpv6 (s : List Char) : Option (List UInt8 × List Char) := do
  let (head, headIpv4, s) := readGroups 8 true s
  if head.length = 16 then some (head, s)
  else if headIpv4 then none
  else do
    let s ← readChar ':' s
    let s ← readChar ':' s
    let (tail, _, s) := readGroups (7 - head.length / 2) true s
    some (head ++ List.replicate (16 - head.length - tail.length) 0 ++ tail, s)

/-- The whole text has to be read. -/
def whole (r : Option (List UInt8 × List Char)) : Option (List UInt8) :=
  match r with
  | some (a, []) => some a
  | _ => none

/-- `Ipv4Addr::from_str`. -/
def ipv4FromStr (s : String) : Option (List UInt8) := whole (readIpv4 s.toList)

/-- `Ipv6Addr::from_str`. -/
def ipv6FromStr (s : String) : Option (List UInt8) := whole (readIpv6 s.toList)

theorem whole_eq_some {r : Option (List UInt8 × List Char)} (h : whole r = some a) :
    r = some (a, []) := by
  match r with
  | none => cases h
  | some (b, []) =>
    cases h
    rfl
  | some (b, c :: s) => cases h

theorem length_readIpv4 (h : readIpv4 s = some (a, rest)) : a.length = 4 := by
  simp only [readIpv4, Option.bind_eq_bind, Option.bind_eq_some_iff] at h
  obtain ⟨_, _, _, _, _, _, _, _, _, _, _, _, _, _, h⟩ := h
  cases h
  rfl

theorem length_readGroups (limit : Nat) (first : Bool) (s : List Char) :
    (readGroups limit first s).1.length % 2 = 0 ∧
      (readGroups limit first s).1.length ≤ 2 * limit := by
  induction limit generalizing first s with
  | zero => exact ⟨rfl, Nat.le_refl _⟩
  | succ limit ih =>
    rw [readGroups]
    split
    · rename_i v4 rest h
      obtain ⟨hl, h⟩ := Option.ite_none_left_eq_some.1 h
      obtain ⟨_, -, h⟩ := Option.bind_eq_some_iff.1 h
      have h4 := length_readIpv4 h
      dsimp only
      omega
    · split
      · exact ⟨rfl, Nat.zero_le _⟩
      · rename_i g rest h
        obtain ⟨h2, hle⟩ := ih false rest
        dsimp only [List.length_cons]
        omega

theorem ipv4FromStr_length (h : ipv4FromStr s = some a) : a.length = 4 :=
  length_readIpv4 (whole_eq_some h)

theorem ipv6FromStr_length (h : ipv6FromStr s = some a) : a.length = 16 := by
  have h := whole_eq_some h
  obtain ⟨h2, hle⟩ := length_readGroups 8 true s.toList
  unfold readIpv6 at h
  generalize readGroups 8 true s.toList = r at h h2 hle
  obtain ⟨head, headIpv4, t⟩ := r
  dsimp only at h h2 hle
  split at h
  · rename_i h16
    cases h
    exact h16
  · split at h
    · cases h
    · simp only [Option.bind_eq_bind, Option.bind_eq_some_iff] at h
      obtain ⟨u, -, v, -, h⟩ := h
      obtain ⟨-, hle'⟩ := length_readGroups (7 - head.length / 2) true v
      generalize readGroups (7 - head.length / 2) true v = r at h hle'
      obtain ⟨tail, b, w⟩ := r
      cases h
      change tail.length ≤ _ at hle'
      change (head ++ List.replicate (16 - head.length - tail.length) 0 ++ tail).length = 16
      rw [List.length_append, List.length_append, List.length_replicate]
      omega

/-- A number is read up to the next character that is no digit. -/
theorem readNumber_append {ds : List Char} (hd : ∀ c ∈ ds, isDigit radix c = true)
    (hr : ∀ c ∈ rest.head?, isDigit radix c = false) (hn : ds ≠ []) (hl : ds.length ≤ maxDigits)
    (hb : value radix ds < bound) (hz : ds.head? = some '0' → ds.length = 1) :
    readNumber radix maxDigits bound zeroPrefix (ds ++ rest) = some (value radix ds, rest) := by
  have htake : rest.takeWhile (isDigit radix) = [] ∧ rest.dropWhile (isDigit radix) = rest := by
    cases rest with
    | nil => exact ⟨rfl, rfl⟩
    | cons c rest =>
      have hc := hr c rfl
      exact ⟨List.takeWhile_cons_of_neg (by simp [hc]), List.dropWhile_cons_of_neg (by simp [hc])⟩
  rw [readNumber, List.takeWhile_append_of_pos hd, List.dropWhile_append_of_pos hd, htake.1,
    htake.2, List.append_nil, if_neg]
  rintro (h | h | h | ⟨-, h, h1⟩)
  · exact hn h
  · omega
  · omega
  · rw [hz h] at h1
    exact absurd h1 (Nat.lt_irrefl 1)

/-- The decimal text of a byte. -/
def byteText (b : UInt8) : List Char := (toString b.toNat).toList

theorem byteText_digits (n : Fin 256) : (∀ c ∈ (toString n.val).toList, isDigit 10 c = true) ∧
    (toString n.val).toList ≠ [] ∧ (toString n.val).toList.length ≤ 3 ∧
    value 10 (toString n.val).toList = n ∧
    ((toString n.val).toList.head? = some '0' → (toString n.val).toList.length = 1) := by
  have htext (n : Nat) : (toString n).toList = Nat.toDigits 10 n := String.toList_ofList
  rw [htext]
  revert n
  simp only [← List.all_eq_true]
  decide +kernel

theorem readNumber_byteText (b : UInt8) (hr : ∀ c ∈ rest.head?, isDigit 10 c = false) :
    readNumber 10 3 256 zeroPrefix (byteText b ++ rest) = some (b.toNat, rest) := by
  obtain ⟨hd, hn, hl, hv, hz⟩ := byteText_digits ⟨b.toNat, b.toNat_lt⟩
  have hb : value 10 (byteText b) = b.toNat := hv
  have h : readNumber 10 3 256 zeroPrefix (byteText b ++ rest) =
      some (value 10 (byteText b), rest) :=
    readNumber_append hd hr hn hl (by rw [hb]; exact b.toNat_lt) hz
  rw [h, hb]

theorem zero_le_of_isDigit (h : isDigit 10 c = true) : '0' ≤ c := by
  by_contra h0
  have hd : digit 10 c = none := by
    have h9 : ¬ ('0' ≤ c ∧ c ≤ '9') := fun hc => h0 hc.1
    refine if_neg ?_
    rw [if_neg h9]
    split
    · omega
    · split
      · omega
      · exact Nat.lt_irrefl 10
  rw [isDigit, hd] at h
  cases h

theorem byteText_plain (b : UInt8) : ∀ c ∈ byteText b, c ≠ '/' ∧ c.isWhitespace = false := by
  intro c hc
  have h0 := zero_le_of_isDigit ((byteText_digits ⟨b.toNat, b.toNat_lt⟩).1 c hc)
  have hne (d : Char) (hd : ¬ '0' ≤ d) : c ≠ d := fun he => hd (he ▸ h0)
  refine ⟨hne '/' (by decide), ?_⟩
  simp [Char.isWhitespace, hne ' ' (by decide), hne '\t' (by decide), hne '\r' (by decide),
    hne '\n' (by decide)]

/-- The text of an IPv4 address. -/
def dotted (a b c d : UInt8) : List Char :=
  byteText a ++ '.' :: (byteText b ++ '.' :: (byteText c ++ '.' :: byteText d))

theorem readIpv4_dotted (a b c d : UInt8) :
    readIpv4 (dotted a b c d) = some ([a, b, c, d], []) := by
  have hdot {s : List Char} : ∀ e ∈ ('.' :: s).head?, isDigit 10 e = false := fun e he => by
    cases he
    decide
  have hlast : readNumber 10 3 256 false (byteText d) = some (d.toNat, []) := by
    have h : readNumber 10 3 256 false (byteText d ++ []) = _ := readNumber_byteText d nofun
    rwa [List.append_nil] at h
  simp only [readIpv4, dotted, readNumber_byteText _ hdot, hlast, readChar, if_true,
    Option.bind_eq_bind, Option.bind_some, UInt8.ofNat_toNat]

theorem ipv4FromStr_dotted (a b c d : UInt8) :
    ipv4FromStr (String.ofList (dotted a b c d)) = some [a, b, c, d] := by
  rw [ipv4FromStr, String.toList_ofList, readIpv4_dotted]
  rfl

theorem readChar_eq_none {s : List Char} (h : c ∉ s) : readChar c s = none := by
  cases s with
  | nil => rfl
  | cons d s =>
    refine if_neg fun hd => h ?_
    rw [hd]
    exact List.mem_cons_self

theorem readGroups_of_notMem {s : List Char} (h : ':' ∉ s) (limit : Nat) :
    readGroups limit false s = ([], false, s) := by
  cases limit with
  | zero => rfl
  | succ limit =>
    have hs : readSeparator ':' false s = none := readChar_eq_none h
    rw [readGroups, hs]
    simp

theorem readGroups_first {s : List Char} (h : ':' ∉ s) : ∃ head headIpv4 rest,
    readGroups 8 true s = (head, headIpv4, rest) ∧ head.length ≠ 16 ∧
      (headIpv4 = true ∨ ':' ∉ rest) := by
  have hs : readSeparator ':' true s = some s := rfl
  rw [readGroups, hs, if_neg (by decide), Option.bind_some, Option.bind_some]
  cases h4 : readIpv4 s with
  | some r =>
    refine ⟨r.1, true, r.2, rfl, ?_, .inl rfl⟩
    rw [length_readIpv4 h4]
    decide
  | none =>
    cases hn : readNumber 16 4 65536 true s with
    | none => exact ⟨[], false, s, rfl, by decide, .inr h⟩
    | some r =>
      have hrest : ':' ∉ r.2 := by
        have hr := (Option.ite_none_left_eq_some.1 hn).2
        cases hr
        exact fun hm => h ((List.dropWhile_sublist _).subset hm)
      refine ⟨[UInt8.ofNat (r.1 / 256), UInt8.ofNat r.1], false, r.2, ?_, nofun, .inr hrest⟩
      dsimp only
      rw [readGroups_of_notMem hrest]

/-- Without a colon a text is no IPv6 address. -/
theorem ipv6FromStr_of_notMem {s : String} (h : ':' ∉ s.toList) : ipv6FromStr s = none := by
  obtain ⟨head, headIpv4, rest, hr, hl, hrest⟩ := readGroups_first h
  rw [ipv6FromStr, readIpv6, hr]
  dsimp only
  rw [if_neg hl]
  rcases hrest with rfl | hrest
  · rfl
  · cases headIpv4 with
    | true => rfl
    | false =>
      rw [if_neg Bool.false_ne_true, readChar_eq_none hrest]
      rfl

theorem colon_notMem_dotted (a b c d : UInt8) : ':' ∉ dotted a b c d := by
  have hb (e : UInt8) : ':' ∉ byteText e := fun hm => by
    have h := (byteText_digits ⟨e.toNat, e.toNat_lt⟩).1 ':' hm
    exact absurd h (by decide)
  simp [dotted, hb]

end IpText
