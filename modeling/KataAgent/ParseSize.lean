import KataAgent.DecimalText
import KataAgent.SearchPattern

namespace KataAgent
open Fallible
set_option autoImplicit true

def KiB : Nat := 1024

def MiB : Nat := 1024 * KiB

def GiB : Nat := 1024 * MiB

def TiB : Nat := 1024 * GiB

def PiB : Nat := 1024 * TiB

def BMAP : Table Chars Nat :=
  (((((∅ : Table Chars Nat).insert ['k'] KiB).insert ['m'] MiB).insert ['g'] GiB).insert ['t']
    TiB).insert ['p'] PiB

/-- What `\d` stands for: the decimal digits of all scripts. -/
structure DigitClass where
  test : Char → Bool
  ascii : ∀ c, c.toNat < 128 → test c = c.isDigit
  not_space : ∀ c, test c = true → isWhitespace c = false

def isUnitLetter (c : Char) : Bool := "kKmMgGtTpP".toList.contains c

def isByteLetter (c : Char) : Bool := c = 'b' || c = 'B'

/-- `(?P<num>\d+)(?P<mul>[kKmMgGtTpP]?)[bB]?$`, where the end of the text is outside. -/
def sizePattern (d : DigitClass) : List (Piece Char) :=
  [.plus d.test, .opt isUnitLetter, .opt isByteLetter]

/-- `str::parse::<u128>`. -/
def parseU128 (cs : Chars) : Outcome ErrorKind Nat :=
  match cs with
  | [] => .err (.parse "cannot parse integer from empty string")
  | '+' :: [] => .err (.parse "invalid digit found in string")
  | '+' :: digits => go 0 digits
  | digits => go 0 digits
where
  go (n : Nat) : Chars → Outcome ErrorKind Nat
    | [] => .ok n
    | c :: cs =>
      if c.isDigit then
        let n' := 10 * n + (c.toNat - '0'.toNat)
        if n' < 2 ^ 128 then go n' cs
        else .err (.parse "number too large to fit in target type")
      else .err (.parse "invalid digit found in string")

/-- The product of two numbers of 128 bits. -/
def mulU128 (overflowChecks : Bool) (a b : Nat) : Outcome ErrorKind Nat :=
  if a * b < 2 ^ 128 then .ok (a * b)
  else if overflowChecks then .panic else .ok (a * b % 2 ^ 128)

def parseSize (d : DigitClass) (overflowChecks : Bool) (s : Chars) (m : Table Chars Nat) :
    Outcome ErrorKind Nat := do
  let caps ← Outcome.ofUnwrap (search (sizePattern d) s)
  let num ← .ofOption (.nix .EINVAL) caps[0]?
  let size ← parseU128 (trim num)
  let q ← .ofOption (.nix .EINVAL) caps[1]?
  let mul ← .ofOption (.nix .EINVAL) (m.lookup q)
  mulU128 overflowChecks size mul

def unitFactor : Chars → Nat
  | ['k'] | ['K'] => KiB
  | ['m'] | ['M'] => MiB
  | ['g'] | ['G'] => GiB
  | ['t'] | ['T'] => TiB
  | ['p'] | ['P'] => PiB
  | _ => 1

/-- The text is a size in the grammar that is meant, and this is its value. -/
def SizeText (s : Chars) (n : Nat) : Prop :=
  ∃ num mul b, s = num ++ mul ++ b ∧ num ≠ [] ∧ (∀ c ∈ num, c.isDigit = true) ∧
    (Piece.opt isUnitLetter).Admits mul ∧ (Piece.opt isByteLetter).Admits b ∧
    n = decimalValue num * unitFactor mul

/-- Sizes that fit are accepted with their value, and the rest are errors. -/
def SizeSpec (s : Chars) (r : Outcome ErrorKind Nat) : Prop :=
  r ≠ .panic ∧ ∀ n, r = .ok n ↔ SizeText s n ∧ n < 2 ^ 128

/-- Where the pattern is found in a text. -/
structure SizeMatch (d : DigitClass) (s pre num mul b : Chars) : Prop where
  text : s = pre ++ num ++ mul ++ b
  num_ok : (Piece.plus d.test).Admits num
  mul_ok : (Piece.opt isUnitLetter).Admits mul
  byte_ok : (Piece.opt isByteLetter).Admits b
  leftmost : ∀ c ∈ pre.getLast?, d.test c = false

def hasLowerUnit (mul : Chars) : Bool := mul.any Char.isLower

section
variable {d : DigitClass} {overflowChecks : Bool} {s pre num mul b : Chars} {n : Nat}

theorem DigitClass.of_isDigit {c : Char} (h : c.isDigit = true) : d.test c = true := by
  rw [d.ascii c, h]
  rw [Char.isDigit, Bool.and_eq_true, decide_eq_true_eq, decide_eq_true_eq] at h
  have hhigh : c.toNat ≤ 57 := h.2
  omega

theorem not_digit_of_unit {c : Char} (h : isUnitLetter c = true) :
    c.isDigit = false ∧ c.toNat < 128 ∧ isByteLetter c = false := by
  have hall : ∀ c ∈ "kKmMgGtTpP".toList,
      c.isDigit = false ∧ c.toNat < 128 ∧ isByteLetter c = false := forall_mem_of_all (by decide)
  exact hall c (List.contains_iff_mem.1 h)

theorem not_unit_of_digit {c : Char} (h : d.test c = true) : isUnitLetter c = false := by
  by_contra hu
  obtain ⟨hdigit, hascii, -⟩ := not_digit_of_unit (Bool.of_not_eq_false hu)
  rw [d.ascii c hascii, hdigit] at h
  cases h

theorem not_byte_of_digit {c : Char} (h : d.test c = true) : isByteLetter c = false := by
  by_contra hb
  rcases Bool.or_eq_true _ _ ▸ Bool.of_not_eq_false hb with hb | hb
  · rw [of_decide_eq_true hb, d.ascii 'b' (by decide)] at h
    cases h
  · rw [of_decide_eq_true hb, d.ascii 'B' (by decide)] at h
    cases h

theorem parseU128_go_eq_ok {cs : Chars} {m : Nat} (hn : n < 2 ^ 128) :
    parseU128.go n cs = .ok m ↔
      (∀ c ∈ cs, c.isDigit = true) ∧ Nat.ofDigitChars 10 cs n < 2 ^ 128 ∧
        m = Nat.ofDigitChars 10 cs n := by
  induction cs generalizing n with
  | nil =>
    constructor
    · intro h
      cases h
      exact ⟨fun _ h => absurd h List.not_mem_nil, hn, rfl⟩
    · intro ⟨_, _, h⟩
      exact congrArg _ h.symm
  | cons c cs ih =>
    have hle : 10 * n + (c.toNat - '0'.toNat) ≤
        Nat.ofDigitChars 10 cs (10 * n + (c.toNat - '0'.toNat)) := by
      rw [Nat.ofDigitChars_eq_ofDigitChars_zero]
      exact Nat.le_trans (Nat.le_mul_of_pos_left _ (Nat.pow_pos (by decide))) (Nat.le_add_right _ _)
    rw [parseU128.go, Nat.ofDigitChars_cons, List.forall_mem_cons]
    by_cases hc : c.isDigit = true
    · rw [if_pos hc]
      dsimp only
      split
      case isTrue hlt =>
        rw [ih hlt]
        exact ⟨fun ⟨ha, hb⟩ => ⟨⟨hc, ha⟩, hb⟩, fun ⟨⟨_, ha⟩, hb⟩ => ⟨ha, hb⟩⟩
      case isFalse hlt =>
        constructor
        · intro h
          cases h
        · intro ⟨_, h, _⟩
          exact absurd (Nat.lt_of_le_of_lt hle h) hlt
    · rw [if_neg hc]
      constructor
      · intro h
        cases h
      · intro ⟨h, _⟩
        exact absurd h.1 hc

theorem parseU128_go_ne_panic (n : Nat) (cs : Chars) : parseU128.go n cs ≠ .panic := by
  induction cs generalizing n with
  | nil => exact fun h => by cases h
  | cons c cs ih =>
    rw [parseU128.go]
    split
    · dsimp only
      split
      · exact ih _
      · exact fun h => by cases h
    · exact fun h => by cases h

theorem parseU128_digits (h : (Piece.plus d.test).Admits num) :
    parseU128 num = parseU128.go 0 num := by
  obtain ⟨c, cs, rfl⟩ := List.exists_cons_of_ne_nil h.1
  have hplus : c ≠ '+' := by
    rintro rfl
    have hc := h.2 '+' List.mem_cons_self
    rw [d.ascii '+' (by decide)] at hc
    cases hc
  rw [parseU128]
  · exact fun h => by cases h
  · intro h
    cases h
    exact hplus rfl
  · intro digits h
    cases h
    exact hplus rfl

theorem SizeMatch.trim_num (h : SizeMatch d s pre num mul b) : trim num = num :=
  trim_of_all fun c hc => d.not_space c (h.num_ok.2 c hc)

/-- No other place, and no other way to take the text from there. -/
theorem SizeMatch.unique {pre' num' mul' b' : Chars} (h : SizeMatch d s pre num mul b)
    (h' : SizeMatch d s pre' num' mul' b') : pre = pre' ∧ num = num' ∧ mul = mul' ∧ b = b' := by
  have hnum {pre num : Chars} (hn : (Piece.plus d.test).Admits num) :
      ∀ c ∈ (pre ++ num).getLast?, d.test c = true := by
    intro c hc
    rw [List.getLast?_append_of_ne_nil _ hn.1] at hc
    exact hn.2 c (List.mem_of_getLast? hc)
  have hbyte {pre num mul : Chars} (hn : (Piece.plus d.test).Admits num)
      (hm : (Piece.opt isUnitLetter).Admits mul) :
      ∀ c ∈ (pre ++ num ++ mul).getLast?, isByteLetter c = false := by
    intro c hc
    by_cases hmul : mul = []
    · rw [hmul, List.append_nil] at hc
      exact not_byte_of_digit (hnum hn c hc)
    · rw [List.getLast?_append_of_ne_nil _ hmul] at hc
      exact (not_digit_of_unit (hm.2 c (List.mem_of_getLast? hc))).2.2
  obtain ⟨hrest, hb⟩ := append_run_inj (hbyte h.num_ok h.mul_ok) (hbyte h'.num_ok h'.mul_ok)
    h.byte_ok.2 h'.byte_ok.2 (h.text.symm.trans h'.text)
  obtain ⟨hrest, hmul⟩ := append_run_inj (fun c hc => not_unit_of_digit (hnum h.num_ok c hc))
    (fun c hc => not_unit_of_digit (hnum h'.num_ok c hc)) h.mul_ok.2 h'.mul_ok.2 hrest
  obtain ⟨hpre, hnum⟩ := append_run_inj h.leftmost h'.leftmost h.num_ok.2 h'.num_ok.2 hrest
  exact ⟨hpre, hnum, hmul, hb⟩

theorem sizeMatch_of_search {caps : List Chars} (h : search (sizePattern d) s = some caps) :
    ∃ pre num mul b, SizeMatch d s pre num mul b ∧ caps = [num, mul, b] := by
  obtain ⟨pre, hs, hcaps, hfirst⟩ := search_eq_some h
  cases hcaps with
  | @cons _ num _ _ hnum hcaps =>
  cases hcaps with
  | @cons _ mul _ _ hmul hcaps =>
  cases hcaps with
  | @cons _ b _ _ hb hcaps =>
  cases hcaps
  refine ⟨pre, num, mul, b, ⟨?_, hnum, hmul, hb, ?_⟩, rfl⟩
  · rw [hs]
    simp only [List.flatten_cons, List.flatten_nil, List.append_nil, List.append_assoc]
  · intro c hc
    by_contra hd
    have hpre := List.dropLast_append_getLast? c hc
    -- the digit in front could have been taken too
    refine hfirst pre.dropLast [c] [c :: num, mul, b] hpre.symm (List.cons_ne_nil c []) ?_ rfl
    have hall : ∀ x ∈ c :: num, d.test x = true :=
      List.forall_mem_cons.2 ⟨Bool.of_not_eq_false hd, hnum.2⟩
    exact .cons ⟨List.cons_ne_nil c num, hall⟩ (.cons hmul (.cons hb .nil))

theorem SizeMatch.search_eq (h : SizeMatch d s pre num mul b) :
    search (sizePattern d) s = some [num, mul, b] := by
  have hpieces : List.Forall₂ Piece.Admits (sizePattern d) [num, mul, b] :=
    .cons h.num_ok (.cons h.mul_ok (.cons h.byte_ok .nil))
  have hs : s = pre ++ [num, mul, b].flatten := by
    rw [h.text]
    simp only [List.flatten_cons, List.flatten_nil, List.append_nil, List.append_assoc]
  have hne := search_ne_none pre hpieces
  rw [← hs] at hne
  obtain ⟨caps, hcaps⟩ := Option.ne_none_iff_exists'.1 hne
  obtain ⟨pre', num', mul', b', h', rfl⟩ := sizeMatch_of_search hcaps
  obtain ⟨-, rfl, rfl, rfl⟩ := h.unique h'
  exact hcaps

theorem SizeMatch.parseSize_eq (h : SizeMatch d s pre num mul b) (m : Table Chars Nat) :
    parseSize d overflowChecks s m = (do
      let size ← parseU128.go 0 num
      let mul ← .ofOption (.nix .EINVAL) (m.lookup mul)
      mulU128 overflowChecks size mul) := by
  rw [parseSize, h.search_eq, Outcome.ofUnwrap_some, Outcome.ok_bind]
  dsimp only [List.getElem?_cons_zero, List.getElem?_cons_succ, Outcome.ofOption]
  rw [Outcome.ok_bind, h.trim_num, parseU128_digits h.num_ok]
  rfl

theorem lookup_BMAP (h : (Piece.opt isUnitLetter).Admits mul) :
    BMAP.lookup mul = if hasLowerUnit mul then some (unitFactor mul) else none := by
  have hall : ∀ c ∈ "kKmMgGtTpP".toList,
      BMAP.lookup [c] = if hasLowerUnit [c] then some (unitFactor [c]) else none :=
    forall_mem_of_all (by decide)
  match mul, h with
  | [], _ => rfl
  | [c], h => exact hall c (List.contains_iff_mem.1 (h.2 c List.mem_cons_self))
  | _ :: _ :: _, h => exact absurd h.1 (by simp)

theorem unitFactor_pos (mul : Chars) : 0 < unitFactor mul := by
  rw [unitFactor.eq_def]
  split <;> decide

theorem SizeMatch.sizeText_iff (h : SizeMatch d s pre num mul b) : SizeText s n ↔
    pre = [] ∧ (∀ c ∈ num, c.isDigit = true) ∧ n = decimalValue num * unitFactor mul := by
  constructor
  · intro ⟨num', mul', b', hs, hne, hdigit, hmul, hb, hn⟩
    have h' : SizeMatch d s [] num' mul' b' := {
      text := hs
      num_ok := ⟨hne, fun c hc => DigitClass.of_isDigit (hdigit c hc)⟩
      mul_ok := hmul
      byte_ok := hb
      leftmost := fun c hc => by cases hc }
    obtain ⟨rfl, rfl, rfl, rfl⟩ := h.unique h'
    exact ⟨rfl, hdigit, hn⟩
  · intro ⟨hpre, hdigit, hn⟩
    have hs := h.text
    rw [hpre] at hs
    exact ⟨num, mul, b, hs, h.num_ok.1, hdigit, h.mul_ok, h.byte_ok, hn⟩

theorem sizeSpec_err {e : ErrorKind} :
    SizeSpec s (.err e) ↔ ¬ ∃ n, SizeText s n ∧ n < 2 ^ 128 := by
  constructor
  · intro ⟨_, h⟩ ⟨n, hn⟩
    cases (h n).2 hn
  · intro h
    constructor
    · intro hp
      cases hp
    · intro n
      constructor
      · intro hn
        cases hn
      · intro hn
        exact absurd ⟨n, hn⟩ h

/-- The product of a number and its unit. -/
theorem SizeMatch.spec_mul (h : SizeMatch d s pre num mul b)
    (hdigit : ∀ c ∈ num, c.isDigit = true) :
    SizeSpec s (mulU128 overflowChecks (decimalValue num) (unitFactor mul)) ↔
      pre = [] ∧ decimalValue num * unitFactor mul < 2 ^ 128 := by
  rw [mulU128]
  by_cases hlt : decimalValue num * unitFactor mul < 2 ^ 128
  · rw [if_pos hlt]
    constructor
    · intro ⟨_, hok⟩
      exact ⟨(h.sizeText_iff.1 ((hok _).1 rfl).1).1, hlt⟩
    · intro ⟨hpre, _⟩
      constructor
      · intro hp
        cases hp
      · intro n
        rw [h.sizeText_iff]
        constructor
        · intro heq
          cases heq
          exact ⟨⟨hpre, hdigit, rfl⟩, hlt⟩
        · intro ⟨⟨_, _, hn⟩, _⟩
          rw [hn]
  · rw [if_neg hlt]
    constructor
    · intro ⟨hpanic, hok⟩
      cases overflowChecks with
      | true => exact absurd rfl hpanic
      | false =>
        -- the low bits are no size of this text
        obtain ⟨htext, hlow⟩ := (hok _).1 rfl
        rw [(h.sizeText_iff.1 htext).2.2] at hlow
        exact absurd hlow hlt
    · intro h
      exact absurd h.2 hlt

/-- The outcome for a text that the pattern matches. -/
theorem SizeMatch.spec_iff (h : SizeMatch d s pre num mul b) :
    SizeSpec s (parseSize d overflowChecks s BMAP) ↔
      ((∀ c ∈ num, c.isDigit = true) → decimalValue num < 2 ^ 128 →
        (hasLowerUnit mul = true ↔ pre = [] ∧ decimalValue num * unitFactor mul < 2 ^ 128)) := by
  rw [h.parseSize_eq, lookup_BMAP h.mul_ok]
  by_cases hnum : (∀ c ∈ num, c.isDigit = true) ∧ decimalValue num < 2 ^ 128
  · obtain ⟨hdigit, hsize⟩ := hnum
    have hgo := (parseU128_go_eq_ok (by decide)).2 ⟨hdigit, hsize, rfl⟩
    rw [hgo, Outcome.ok_bind]
    cases hl : hasLowerUnit mul with
    | true =>
      have hspec : SizeSpec s
          (mulU128 overflowChecks (decimalValue num) (unitFactor mul)) ↔ _ := h.spec_mul hdigit
      exact hspec.trans ⟨fun hr _ _ => ⟨fun _ => hr, fun _ => rfl⟩,
        fun hr => (hr hdigit hsize).1 rfl⟩
    | false =>
      apply sizeSpec_err.trans
      constructor
      · intro hno _ _
        constructor
        · intro hf
          cases hf
        · intro ⟨hpre, hlt⟩
          exact absurd ⟨_, h.sizeText_iff.2 ⟨hpre, hdigit, rfl⟩, hlt⟩ hno
      · intro hr ⟨n, htext, hlt⟩
        obtain ⟨hpre, -, rfl⟩ := h.sizeText_iff.1 htext
        cases (hr hdigit hsize).2 ⟨hpre, hlt⟩
  · refine ⟨fun _ hdigit hsize => absurd ⟨hdigit, hsize⟩ hnum, fun _ => ?_⟩
    cases hgo : parseU128.go 0 num with
    | ok m =>
      obtain ⟨hdigit, hsize, -⟩ := (parseU128_go_eq_ok (by decide)).1 hgo
      exact absurd ⟨hdigit, hsize⟩ hnum
    | panic => exact absurd hgo (parseU128_go_ne_panic 0 num)
    | err e =>
      apply sizeSpec_err.2
      intro ⟨n, htext, hlt⟩
      obtain ⟨-, hdigit, rfl⟩ := h.sizeText_iff.1 htext
      exact hnum ⟨hdigit,
        Nat.lt_of_le_of_lt (Nat.le_mul_of_pos_right _ (unitFactor_pos mul)) hlt⟩

end

/-- The function does what its grammar asks for exactly where the pattern matches and, unless the
number is too large or in other digits, the unit is in lower case just when the number starts the
text and the product fits. -/
theorem parseSize_iff (d : DigitClass) (overflowChecks : Bool) (s : Chars) :
    SizeSpec s (parseSize d overflowChecks s BMAP) ↔
      ∃ pre num mul b, SizeMatch d s pre num mul b ∧
        ((∀ c ∈ num, c.isDigit = true) → decimalValue num < 2 ^ 128 →
          (hasLowerUnit mul = true ↔ pre = [] ∧ decimalValue num * unitFactor mul < 2 ^ 128)) := by
  constructor
  · intro hspec
    cases hsearch : search (sizePattern d) s with
    | none =>
      refine absurd ?_ hspec.1
      rw [parseSize, hsearch]
      rfl
    | some caps =>
      obtain ⟨pre, num, mul, b, h, -⟩ := sizeMatch_of_search hsearch
      exact ⟨pre, num, mul, b, h, h.spec_iff.1 hspec⟩
  · intro ⟨pre, num, mul, b, h, hr⟩
    exact h.spec_iff.2 hr

def asciiDigits : DigitClass where
  test := Char.isDigit
  ascii _ _ := rfl
  not_space _ h := not_whitespace_of_isDigit h

/-- A size without a unit is an error. -/
theorem parseSize_bare : ¬ ∀ (d : DigitClass) (overflowChecks : Bool) (s : Chars),
    SizeSpec s (parseSize d overflowChecks s BMAP) := by
  intro h
  have htext : SizeText "5".toList 5 := by
    refine ⟨"5".toList, [], [], rfl, by decide, forall_mem_of_all (by decide), ?_, ?_, rfl⟩
    · exact ⟨Nat.zero_le 1, fun _ h => absurd h List.not_mem_nil⟩
    · exact ⟨Nat.zero_le 1, fun _ h => absurd h List.not_mem_nil⟩
  have hok := ((h asciiDigits true "5".toList).2 5).2 ⟨htext, by decide⟩
  exact absurd hok (by decide)

end KataAgent
