import Mathlib.Tactic.IntervalCases
import Mathlib.Tactic.Ring

namespace RadixText
set_option autoImplicit true

/-- What a character is worth as a digit, in either case. -/
def digitValue (c : Char) : Option Nat :=
  if 48 ≤ c.toNat ∧ c.toNat ≤ 57 then some (c.toNat - 48)
  else if 97 ≤ c.toNat ∧ c.toNat ≤ 102 then some (c.toNat - 87)
  else if 65 ≤ c.toNat ∧ c.toNat ≤ 70 then some (c.toNat - 55)
  else none

def digit (b : Nat) (c : Char) : Option Nat := (digitValue c).filter fun d => d < b

/-- The number that the digits at the start of a text stand for, after those that made `n`, and
the rest of the text. -/
def scan (b : Nat) : Nat → List Char → Nat × List Char
  | n, [] => (n, [])
  | n, c :: cs =>
    match digit b c with
    | some d => scan b (b * n + d) cs
    | none => (n, c :: cs)

/-- A way to write digits. -/
def Writes (f : Char → Char) : Prop := ∀ d < 16, digitValue (f d.digitChar) = some d

theorem writes_lower : Writes id := by
  intro d hd
  interval_cases d <;> rfl

theorem writes_upper : Writes Char.toUpper := by
  intro d hd
  interval_cases d <;> rfl

variable {b d n k : Nat} {f : Char → Char} {rest : List Char}

theorem digit_written (hf : Writes f) (hb : b ≤ 16) (hd : d < b) :
    digit b (f d.digitChar) = some d := by
  rw [digit, hf d (Nat.lt_of_lt_of_le hd hb), Option.filter_some, if_pos (decide_eq_true hd)]

theorem scan_digitChar (hf : Writes f) (hb : b ≤ 16) (hd : d < b) :
    scan b k (f d.digitChar :: rest) = scan b (b * k + d) rest := by
  rw [scan, digit_written hf hb hd]

/-- The digits of a number are read as it, by the division that makes them. -/
theorem scan_toDigits (hf : Writes f) (hb : 1 < b) (hb' : b ≤ 16) (n : Nat) (rest : List Char) :
    scan b k ((Nat.toDigits b n).map f ++ rest) =
      scan b (k * b ^ (Nat.toDigits b n).length + n) rest := by
  induction n using Nat.strong_induction_on generalizing rest with
  | _ n ih =>
    rw [Nat.toDigits_eq_if hb]
    split
    · rename_i hlt
      rw [List.map_singleton, List.singleton_append, scan_digitChar hf hb' hlt,
        List.length_singleton, pow_one, Nat.mul_comm]
    · rename_i hle
      have hdiv : n / b < n := Nat.div_lt_self (by omega) hb
      have hmod : n % b < b := Nat.mod_lt n (by omega)
      rw [List.map_append, List.append_assoc, ih (n / b) hdiv, List.map_singleton,
        List.singleton_append, scan_digitChar hf hb' hmod, List.length_append,
        List.length_singleton, pow_succ]
      have hn : b * (k * b ^ (Nat.toDigits b (n / b)).length + n / b) + n % b =
          k * (b ^ (Nat.toDigits b (n / b)).length * b) + n := by
        have hsplit := Nat.div_add_mod n b
        calc b * (k * b ^ (Nat.toDigits b (n / b)).length + n / b) + n % b
            = k * (b ^ (Nat.toDigits b (n / b)).length * b) + (b * (n / b) + n % b) := by ring
          _ = k * (b ^ (Nat.toDigits b (n / b)).length * b) + n := by rw [hsplit]
      rw [hn]

/-- A number is read back from its digits, up to what is no digit. -/
theorem scan_number (hf : Writes f) (hb : 1 < b) (hb' : b ≤ 16) (n : Nat) (rest : List Char)
    (hrest : ∀ c ∈ rest.head?, digit b c = none) :
    scan b 0 ((Nat.toDigits b n).map f ++ rest) = (n, rest) := by
  rw [scan_toDigits hf hb hb', Nat.zero_mul, Nat.zero_add]
  cases rest with
  | nil => rfl
  | cons c cs =>
    rw [scan, hrest c rfl]

theorem mem_toDigits {c : Char} (hb : 1 < b) (hc : c ∈ Nat.toDigits b n) :
    ∃ d < b, c = d.digitChar := by
  induction n using Nat.strong_induction_on with
  | _ n ih =>
    rw [Nat.toDigits_eq_if hb] at hc
    split at hc
    · rename_i hlt
      exact ⟨n, hlt, List.mem_singleton.1 hc⟩
    · rename_i hle
      rcases List.mem_append.1 hc with hc | hc
      · exact ih (n / b) (Nat.div_lt_self (by omega) hb) hc
      · exact ⟨n % b, Nat.mod_lt n (by omega), List.mem_singleton.1 hc⟩

theorem toDigits_cons (b n : Nat) : ∃ c cs, Nat.toDigits b n = c :: cs :=
  List.exists_cons_of_ne_nil Nat.toDigits_ne_nil

end RadixText
