import Mathlib.Data.Finmap

/-- A finite map with values of one type. -/
abbrev Table (κ α : Type) := Finmap fun _ : κ => α

namespace Table
set_option autoImplicit true

/-- What is found in a list of rows is one of them. -/
theorem mem_of_lookup [BEq κ] [LawfulBEq κ] {rows : List (κ × α)} {k : κ} {a : α}
    (h : rows.lookup k = some a) : (k, a) ∈ rows := by
  obtain ⟨l, m, rfl, -⟩ := List.lookup_eq_some_iff.1 h
  exact List.mem_append_right l List.mem_cons_self

variable {κ α : Type} [DecidableEq κ] {m : Table κ α}

theorem lookup_insert (m : Table κ α) (k : κ) (a : α) (x : κ) :
    (m.insert k a).lookup x = if x = k then some a else m.lookup x := by
  split
  · rename_i h
    rw [h, Finmap.lookup_insert]
  · rename_i h
    exact Finmap.lookup_insert_of_ne m h

theorem of_lookup_insert {k x : κ} {a b : α} (h : (m.insert k a).lookup x = some b) :
    (x = k ∧ b = a) ∨ (x ≠ k ∧ m.lookup x = some b) := by
  rw [lookup_insert] at h
  split at h
  · rename_i hx
    cases h
    exact .inl ⟨hx, rfl⟩
  · rename_i hx
    exact .inr ⟨hx, h⟩

theorem lookup_erase (m : Table κ α) (k x : κ) :
    (m.erase k).lookup x = if x = k then none else m.lookup x := by
  split
  · rename_i h
    rw [h, Finmap.lookup_erase]
  · rename_i h
    exact Finmap.lookup_erase_ne h

theorem of_lookup_erase {k x : κ} {a : α} (h : (m.erase k).lookup x = some a) :
    x ≠ k ∧ m.lookup x = some a := by
  rw [lookup_erase] at h
  split at h
  · cases h
  · rename_i hx
    exact ⟨hx, h⟩

theorem mem_keys_iff {k : κ} : k ∈ m.keys ↔ ∃ a, m.lookup k = some a := by
  rw [Finmap.mem_keys, Finmap.mem_iff]

theorem notMem_iff {k : κ} : k ∉ m ↔ m.lookup k = none :=
  Finmap.lookup_eq_none.symm

theorem lookup_foldl_erase (m : Table κ α) (ks : List κ) (x : κ) :
    (ks.foldl (fun m k => m.erase k) m).lookup x = if x ∈ ks then none else m.lookup x := by
  induction ks generalizing m with
  | nil => rfl
  | cons k ks ih =>
    rw [List.foldl_cons, ih, lookup_erase]
    by_cases hx : x = k
    · simp [hx]
    · simp [hx]

/-- Change the value of a present key. -/
def update (m : Table κ α) (k : κ) (f : α → α) : Table κ α :=
  match m.lookup k with
  | none => m
  | some a => m.insert k (f a)

theorem lookup_update (m : Table κ α) (k : κ) (f : α → α) (x : κ) :
    (m.update k f).lookup x = if x = k then (m.lookup k).map f else m.lookup x := by
  rw [update]
  cases h : m.lookup k with
  | none =>
    by_cases hx : x = k
    · rw [if_pos hx, hx, h]
      rfl
    · rw [if_neg hx]
  | some a =>
    rw [lookup_insert]
    rfl

theorem of_lookup_update {k x : κ} {f : α → α} {b : α} (h : (m.update k f).lookup x = some b) :
    (x = k ∧ ∃ a, m.lookup k = some a ∧ b = f a) ∨ (x ≠ k ∧ m.lookup x = some b) := by
  rw [lookup_update] at h
  split at h
  · rename_i hx
    obtain ⟨a, ha, rfl⟩ := Option.map_eq_some_iff.1 h
    exact .inl ⟨hx, a, ha, rfl⟩
  · rename_i hx
    exact .inr ⟨hx, h⟩

theorem mem_update {k x : κ} {f : α → α} : x ∈ m.update k f ↔ x ∈ m := by
  rw [← Finmap.mem_keys, ← Finmap.mem_keys, mem_keys_iff, mem_keys_iff, lookup_update]
  split
  · rename_i hx
    rw [hx]
    cases m.lookup k with
    | none => exact .rfl
    | some a => exact ⟨fun _ => ⟨a, rfl⟩, fun _ => ⟨f a, rfl⟩⟩
  · exact .rfl

/-- The keys whose value has the property. -/
def holders (m : Table κ α) (P : α → Prop) [DecidablePred P] : Finset κ :=
  m.keys.filter fun k => ∃ a ∈ m.lookup k, P a

def count (m : Table κ α) (P : α → Prop) [DecidablePred P] : Nat := (m.holders P).card

variable {P : α → Prop} [DecidablePred P]

theorem mem_holders {k : κ} : k ∈ m.holders P ↔ ∃ a, m.lookup k = some a ∧ P a := by
  rw [holders]
  rw [Finset.mem_filter]
  constructor
  · rintro ⟨-, a, ha, hp⟩
    exact ⟨a, ha, hp⟩
  · rintro ⟨a, ha, hp⟩
    exact ⟨mem_keys_iff.2 ⟨a, ha⟩, a, ha, hp⟩

@[simp] theorem count_empty : count (∅ : Table κ α) P = 0 := by
  simp [count, holders]

theorem count_pos_iff : 0 < m.count P ↔ ∃ k a, m.lookup k = some a ∧ P a := by
  rw [count]
  rw [Finset.card_pos]
  exact exists_congr fun k => mem_holders

theorem holders_insert {k : κ} {a : α} (h : m.lookup k = none) :
    holders (m.insert k a) P = if P a then insert k (m.holders P) else m.holders P := by
  ext x
  rw [mem_holders, lookup_insert]
  by_cases hx : x = k
  · subst hx
    have hn : x ∉ m.holders P := fun hm => by
      obtain ⟨b, hb, -⟩ := mem_holders.1 hm
      cases h.symm.trans hb
    by_cases ha : P a
    · simp [ha]
    · simp [ha, hn]
  · rw [if_neg hx, ← mem_holders]
    by_cases ha : P a
    · simp [ha, hx]
    · simp [ha]

theorem count_insert {k : κ} {a : α} (h : m.lookup k = none) :
    count (m.insert k a) P = m.count P + if P a then 1 else 0 := by
  rw [count]
  rw [holders_insert h]
  split
  · apply Finset.card_insert_of_notMem
    intro hm
    obtain ⟨b, hb, -⟩ := mem_holders.1 hm
    cases h.symm.trans hb
  · rfl

theorem count_erase {k : κ} {a : α} (h : m.lookup k = some a) :
    count (m.erase k) P + (if P a then 1 else 0) = m.count P := by
  have hi : (m.erase k).insert k a = m := by
    apply Finmap.ext_lookup
    intro x
    rw [lookup_insert, lookup_erase]
    split
    · rename_i hx
      rw [hx, h]
    · rfl
  have hn : (m.erase k).lookup k = none := by rw [lookup_erase, if_pos rfl]
  calc count (m.erase k) P + (if P a then 1 else 0)
      = count ((m.erase k).insert k a) P := (count_insert hn).symm
    _ = m.count P := by rw [hi]

theorem erase_of_lookup_none {k : κ} (h : m.lookup k = none) : m.erase k = m := by
  apply Finmap.ext_lookup
  intro x
  rw [lookup_erase]
  split
  · rename_i hx
    rw [hx, h]
  · rfl

theorem insert_eq_self_iff {k : κ} {a : α} : m.insert k a = m ↔ m.lookup k = some a := by
  constructor
  · intro h
    rw [← h, lookup_insert, if_pos rfl]
  · intro h
    apply Finmap.ext_lookup
    intro x
    rw [lookup_insert]
    split
    · rename_i hx
      rw [hx, h]
    · rfl

end Table
