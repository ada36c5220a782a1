import Mathlib.Data.List.Forall2
import Mathlib.Tactic.Common

namespace Copies
set_option autoImplicit true

/-- When a value of `β` stands for a value of `α`. A value of `β` stands for at most one of those
that fit. -/
structure Copy (α β : Type) where
  Kept : α → β → Prop
  Fits : α → Prop
  unique : Kept a b → Kept a' b → Fits a → Fits a' → a = a'

/-- A member of `σ` and the member of `τ` that it is copied to. -/
structure Pair (σ τ : Type) where
  {α β : Type}
  source : σ → α
  target : τ → β
  copy : Copy α β

def Copy.same : Copy α α where
  Kept a b := b = a
  Fits _ := True
  unique h h' _ _ := h.symm.trans h'

/-- An integer in another width: within the bounds of that width it is the same integer. -/
def Copy.integer (toInt : α → Int) (h : Function.Injective toInt) (toInt' : β → Int)
    (lo hi : Int) : Copy α β where
  Kept a b := lo ≤ toInt a ∧ toInt a < hi → toInt' b = toInt a
  Fits a := lo ≤ toInt a ∧ toInt a < hi
  unique ha ha' fits fits' := h ((ha fits).symm.trans (ha' fits'))

/-- A value that the copy always has. -/
def Copy.written (c : Copy α β) : Copy α (Option β) where
  Kept a o := ∃ b, o = some b ∧ c.Kept a b
  Fits := c.Fits
  unique := by
    rintro a o a' ⟨b, ho, hb⟩ ⟨b', ho', hb'⟩ fits fits'
    obtain rfl : b = b' := Option.some.inj (ho.symm.trans ho')
    exact c.unique hb hb' fits fits'

/-- A value that the copy leaves out where it is the wildcard. -/
def Copy.wildcard [DecidableEq α] (any : α) : Copy α (Option α) where
  Kept a o := o = if a = any then none else some a
  Fits _ := True
  unique {a} o {a'} h h' _ _ := by
    rw [h] at h'
    by_cases ha : a = any
    · by_cases ha' : a' = any
      · rw [ha, ha']
      · rw [if_pos ha, if_neg ha'] at h'
        cases h'
    · by_cases ha' : a' = any
      · rw [if_neg ha, if_pos ha'] at h'
        cases h'
      · rw [if_neg ha, if_neg ha'] at h'
        exact Option.some.inj h'

/-- A value that neither has. -/
def Copy.absent : Copy (Option α) (Option β) where
  Kept a b := a = none ∧ b = none
  Fits _ := True
  unique h h' _ _ := h.1.trans h'.1.symm

/-- Present in the copy exactly when it is present. -/
def Copy.option (c : Copy α β) : Copy (Option α) (Option β) where
  Kept := Option.Rel c.Kept
  Fits o := ∀ a ∈ o, c.Fits a
  unique := by
    intro o p o' h h' fits fits'
    cases h with
    | none =>
      cases h'
      rfl
    | some hb =>
      cases h' with
      | some hb' => exact congrArg some (c.unique hb hb' (fits _ rfl) (fits' _ rfl))

/-- A value that is there, in a copy that cannot be without it. -/
def Copy.required (c : Copy α β) : Copy (Option α) β where
  Kept o b := ∃ a, o = some a ∧ c.Kept a b
  Fits o := ∀ a ∈ o, c.Fits a
  unique := by
    rintro o b o' ⟨a, rfl, ha⟩ ⟨a', rfl, ha'⟩ fits fits'
    exact congrArg some (c.unique ha ha' (fits a rfl) (fits' a' rfl))

/-- The same number of elements, in the same order. -/
def Copy.list (c : Copy α β) : Copy (List α) (List β) where
  Kept := List.Forall₂ c.Kept
  Fits l := ∀ a ∈ l, c.Fits a
  unique := by
    intro l m l' h
    induction h generalizing l' with
    | nil =>
      intro h' _ _
      cases h'
      rfl
    | cons hb _ ih =>
      intro h' fits fits'
      cases h' with
      | cons hb' hl =>
        rw [List.forall_mem_cons] at fits fits'
        rw [c.unique hb hb' fits.1 fits'.1, ih hl fits.2 fits'.2]

/-- Every member of the one is kept in its member of the other. -/
def KeptAll : List (Pair σ τ) → σ → τ → Prop
  | [], _, _ => True
  | p :: ps, a, b => p.copy.Kept (p.source a) (p.target b) ∧ KeptAll ps a b

def FitsAll : List (Pair σ τ) → σ → Prop
  | [], _ => True
  | p :: ps, a => p.copy.Fits (p.source a) ∧ FitsAll ps a

theorem keptAll_unique {pairs : List (Pair σ τ)} (h : KeptAll pairs a b)
    (h' : KeptAll pairs a' b) (fits : FitsAll pairs a) (fits' : FitsAll pairs a') :
    ∀ p ∈ pairs, p.source a = p.source a' := by
  induction pairs with
  | nil => exact nofun
  | cons p pairs ih =>
    rw [List.forall_mem_cons]
    exact ⟨p.copy.unique h.1 h'.1 fits.1 fits'.1, ih h.2 h'.2 fits.2 fits'.2⟩

/-- A record that is copied member by member, each member of it to one of the copy. -/
def Copy.record (pairs : List (Pair σ τ))
    (ext : ∀ a a' : σ, (∀ p ∈ pairs, p.source a = p.source a') → a = a' := by
      rintro ⟨⟩ ⟨⟩ h
      simpa using h) : Copy σ τ where
  Kept := KeptAll pairs
  Fits := FitsAll pairs
  unique h h' fits fits' := ext _ _ (keptAll_unique h h' fits fits')

@[simp]
theorem Copy.kept_same {a b : α} : Copy.same.Kept a b ↔ b = a := Iff.rfl

@[simp]
theorem Copy.kept_written {c : Copy α β} : c.written.Kept a (some b) ↔ c.Kept a b :=
  ⟨fun ⟨_, hb, h⟩ => Option.some.inj hb ▸ h, fun h => ⟨b, rfl, h⟩⟩

@[simp]
theorem Copy.kept_wildcard [DecidableEq α] {any a : α} :
    (Copy.wildcard any).Kept a (if a = any then none else some a) := rfl

@[simp]
theorem Copy.kept_absent : Copy.absent.Kept (none : Option α) (none : Option β) := ⟨rfl, rfl⟩

@[simp]
theorem Copy.kept_required {c : Copy α β} : c.required.Kept (some a) b ↔ c.Kept a b :=
  ⟨fun ⟨_, ha, h⟩ => Option.some.inj ha ▸ h, fun h => ⟨a, rfl, h⟩⟩

@[simp]
theorem Copy.kept_record {pairs : List (Pair σ τ)} {ext} {a : σ} {b : τ} :
    (Copy.record pairs ext).Kept a b ↔ KeptAll pairs a b := Iff.rfl

@[simp]
theorem Copy.kept_option {c : Copy α β} (h : ∀ a, c.Kept a (f a)) (o : Option α) :
    c.option.Kept o (o.map f) := by
  cases o with
  | none => exact .none
  | some a => exact .some (h a)

@[simp]
theorem Copy.kept_list {c : Copy α β} (h : ∀ a, c.Kept a (f a)) (l : List α) :
    c.list.Kept l (l.map f) := by
  induction l with
  | nil => exact .nil
  | cons a l ih => exact .cons (h a) ih

end Copies
