import KataAgent.CgroupFiles
import KataAgent.ProcessHandlers

namespace KataAgent
open Fallible
set_option autoImplicit true

/-- The members of a list are looked at one by one, where all values of their type are too many. -/
theorem forall_mem_of_all {α : Type} {l : List α} {p : α → Prop} [DecidablePred p]
    (h : l.all (fun a => decide (p a)) = true) : ∀ a ∈ l, p a := by
  intro a ha
  exact of_decide_eq_true (List.all_eq_true.1 h a ha)

/-- A number as the kernel writes it. -/
def decimalText (n : Nat) : Chars := Nat.toDigits 10 n

/-- The number that a text of digits stands for. -/
def decimalValue (ds : Chars) : Nat := Nat.ofDigitChars 10 ds 0

theorem decimalValue_decimalText (n : Nat) : decimalValue (decimalText n) = n :=
  Nat.ofDigitChars_ten_toDigits

theorem decimalText_inj (h : decimalText a = decimalText b) : a = b := by
  rw [← decimalValue_decimalText a, h, decimalValue_decimalText]

theorem decimalText_ne_nil (n : Nat) : decimalText n ≠ [] := Nat.toDigits_ne_nil

theorem isDigit_of_mem_decimalText (h : c ∈ decimalText n) : c.isDigit = true :=
  Nat.isDigit_of_mem_toDigits (by decide) (by decide) h

theorem notMem_decimalText (hc : c.isDigit = false) : c ∉ decimalText n := by
  intro h
  rw [isDigit_of_mem_decimalText h] at hc
  cases hc

theorem not_whitespace_of_isDigit (h : c.isDigit = true) : isWhitespace c = false := by
  rw [Char.isDigit, Bool.and_eq_true, decide_eq_true_eq, decide_eq_true_eq] at h
  have hlow : 48 ≤ c.toNat := h.1
  have hhigh : c.toNat ≤ 57 := h.2
  rw [isWhitespace]
  simp only [Bool.or_eq_false_iff, Bool.and_eq_false_iff, decide_eq_false_iff_not]
  omega

theorem trim_of_all {cs : Chars} (h : ∀ c ∈ cs, isWhitespace c = false) : trim cs = cs := by
  have hdrop (l : Chars) (hl : ∀ c ∈ l, isWhitespace c = false) :
      l.dropWhile isWhitespace = l := by
    cases l with
    | nil => rfl
    | cons c l =>
      rw [List.dropWhile_cons_of_neg]
      rw [hl c List.mem_cons_self]
      exact Bool.false_ne_true
  rw [trim, hdrop cs h, hdrop cs.reverse, List.reverse_reverse]
  intro c hc
  exact h c (List.mem_reverse.1 hc)

theorem trim_decimalText (n : Nat) : trim (decimalText n) = decimalText n :=
  trim_of_all fun _ hc => not_whitespace_of_isDigit (isDigit_of_mem_decimalText hc)

/-- The sign of a number is none of its digits. -/
theorem decimalText_cons (n : Nat) : ∃ c ds, decimalText n = c :: ds ∧ c.isDigit = true := by
  obtain ⟨c, ds, h⟩ := List.exists_cons_of_ne_nil (decimalText_ne_nil n)
  exact ⟨c, ds, h, isDigit_of_mem_decimalText (h ▸ List.mem_cons_self)⟩

theorem trim_decimalText_newline (n : Nat) : trim (decimalText n ++ ['\n']) = decimalText n := by
  have htrim := trim_decimalText n
  obtain ⟨c, ds, hcons, hdigit⟩ := decimalText_cons n
  have hc := not_whitespace_of_isDigit hdigit
  rw [hcons] at htrim ⊢
  rw [trim, List.dropWhile_cons_of_neg (by rw [hc]; exact Bool.false_ne_true)] at htrim
  rw [trim, List.cons_append, List.dropWhile_cons_of_neg (by rw [hc]; exact Bool.false_ne_true),
    ← List.cons_append, List.reverse_append, List.reverse_singleton, List.singleton_append,
    List.dropWhile_cons_of_pos (by decide), htrim]

theorem parseU64_go_digits {cs : Chars} (hc : ∀ c ∈ cs, c.isDigit = true)
    (hn : Nat.ofDigitChars 10 cs n < 2 ^ 64) :
    parseU64.go n cs = .ok (UInt64.ofNat (Nat.ofDigitChars 10 cs n)) := by
  induction cs generalizing n with
  | nil => rfl
  | cons c cs ih =>
    obtain ⟨hdigit, hc⟩ := List.forall_mem_cons.1 hc
    rw [Nat.ofDigitChars_cons] at hn ⊢
    have hle : 10 * n + (c.toNat - '0'.toNat) ≤
        Nat.ofDigitChars 10 cs (10 * n + (c.toNat - '0'.toNat)) := by
      rw [Nat.ofDigitChars_eq_ofDigitChars_zero]
      exact Nat.le_trans (Nat.le_mul_of_pos_left _ (Nat.pow_pos (by decide))) (Nat.le_add_right _ _)
    rw [parseU64.go, if_pos hdigit]
    dsimp only
    rw [if_pos (Nat.lt_of_le_of_lt hle hn), ih hc hn]

theorem parseU64_decimalText (v : UInt64) : parseU64 (decimalText v.toNat) = .ok v := by
  obtain ⟨c, ds, hcons, hdigit⟩ := decimalText_cons v.toNat
  have hgo : parseU64.go 0 (decimalText v.toNat) = .ok v := by
    have hvalue := decimalValue_decimalText v.toNat
    rw [decimalValue] at hvalue
    rw [parseU64_go_digits fun c hc => isDigit_of_mem_decimalText hc]
    · rw [hvalue, UInt64.ofNat_toNat]
    · rw [hvalue]
      exact v.toNat_lt
  rw [hcons] at hgo ⊢
  rw [parseU64]
  · exact hgo
  · exact fun h => by cases h
  · intro h
    cases h
    exact absurd hdigit (by decide)
  · intro digits h
    cases h
    exact absurd hdigit (by decide)

theorem parseI32_decimalText (h : n < 2 ^ 31) : parseI32 (decimalText n) = some (n : Int) := by
  obtain ⟨c, ds, hcons, hdigit⟩ := decimalText_cons n
  have hdigits : parseDigits (decimalText n) = some n := by
    have hvalue : (decimalText n).foldl (fun n c => 10 * n + (c.toNat - '0'.toNat)) 0 = n := by
      rw [← Nat.ofDigitChars_eq_foldl]
      exact decimalValue_decimalText n
    have hall : (decimalText n).all Char.isDigit = true :=
      List.all_eq_true.2 fun c hc => isDigit_of_mem_decimalText hc
    rw [hcons] at hvalue hall ⊢
    rw [parseDigits, if_pos hall, hvalue]
    exact fun h => by cases h
  rw [hcons] at hdigits ⊢
  rw [parseI32, hdigits, Option.bind_some, if_pos h]
  · intro cs h
    cases h
    exact absurd hdigit (by decide)
  · intro cs h
    cases h
    exact absurd hdigit (by decide)

end KataAgent
