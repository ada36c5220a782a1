import Mathlib.Data.List.Induction

namespace LastWrite
set_option autoImplicit true

/-- What the last element of a list that writes something writes. -/
def lastWrite (write : α → Option β) (l : List α) : Option β := (l.filterMap write).getLast?

section
variable {α β γ σ : Type} {write : α → Option β} {l : List α} {a : α} {b : β}

theorem lastWrite_concat : lastWrite write (l ++ [a]) = (write a).or (lastWrite write l) := by
  rw [lastWrite, List.filterMap_append]
  cases h : write a with
  | none =>
    rw [List.filterMap_cons_none h, List.filterMap_nil, List.append_nil, Option.none_or, lastWrite]
  | some b =>
    rw [List.filterMap_cons_some h, List.filterMap_nil, List.getLast?_append, Option.some_or]
    rfl

/-- A register that each element overwrites or leaves holds the last write. -/
theorem register_foldl (step : σ → α → σ) (register : σ → β)
    (h : ∀ s a, register (step s a) = (write a).getD (register s)) (s : σ) (l : List α) :
    register (l.foldl step s) = (lastWrite write l).getD (register s) := by
  induction l using List.reverseRecOn with
  | nil => rfl
  | append_singleton l a ih =>
    rw [List.foldl_append, List.foldl_cons, List.foldl_nil, h, ih, lastWrite_concat]
    cases write a with
    | none => rw [Option.none_or, Option.getD_none]
    | some b => rw [Option.some_or, Option.getD_some, Option.getD_some]

theorem lastWrite_eq_some_iff : lastWrite write l = some b ↔
    ∃ before a after, l = before ++ a :: after ∧ write a = some b ∧
      ∀ x ∈ after, write x = none := by
  rw [lastWrite, List.getLast?_eq_some_iff]
  constructor
  · rintro ⟨ys, h⟩
    obtain ⟨l₁, l₂, rfl, -, h⟩ := List.filterMap_eq_append_iff.1 h
    obtain ⟨m, a, after, rfl, -, ha, h⟩ := List.filterMap_eq_cons_iff.1 h
    refine ⟨l₁ ++ m, a, after, ?_, ha, List.filterMap_eq_nil_iff.1 h⟩
    rw [List.append_assoc]
  · rintro ⟨before, a, after, rfl, ha, h⟩
    refine ⟨before.filterMap write, ?_⟩
    rw [List.filterMap_append, List.filterMap_cons_some ha, List.filterMap_eq_nil_iff.2 h]

theorem lastWrite_append {m : List α} :
    lastWrite write (l ++ m) = (lastWrite write m).or (lastWrite write l) := by
  rw [lastWrite, lastWrite, lastWrite, List.filterMap_append, List.getLast?_append]

theorem lastWrite_nil : lastWrite write [] = none := rfl

theorem lastWrite_singleton : lastWrite write [a] = write a := by
  rw [← List.nil_append [a], lastWrite_concat, lastWrite_nil, Option.or_none]

theorem lastWrite_cons : lastWrite write (a :: l) = (lastWrite write l).or (write a) := by
  have hcons : a :: l = [a] ++ l := rfl
  rw [hcons, lastWrite_append, lastWrite_singleton]

theorem lastWrite_eq_none_iff : lastWrite write l = none ↔ ∀ a ∈ l, write a = none := by
  rw [lastWrite, List.getLast?_eq_none_iff, List.filterMap_eq_nil_iff]

theorem lastWrite_const (hex : ∃ a ∈ l, write a ≠ none)
    (hall : ∀ a ∈ l, ∀ c, write a = some c → c = b) : lastWrite write l = some b := by
  cases h : lastWrite write l with
  | none =>
    obtain ⟨a, ha, hne⟩ := hex
    exact absurd (lastWrite_eq_none_iff.1 h a ha) hne
  | some c =>
    obtain ⟨before, a, after, rfl, ha, -⟩ := lastWrite_eq_some_iff.1 h
    rw [hall a (List.mem_append_right _ List.mem_cons_self) c ha]

/-- Where each register has one writer at most, the write to one is that of its writer. -/
theorem lastWrite_of_nodup [DecidableEq κ] {key : α → κ} {f : α → Option β}
    (h : (l.map key).Nodup) (ha : a ∈ l) :
    lastWrite (fun x => if key x = key a then f x else none) l = f a := by
  obtain ⟨before, after, rfl⟩ := List.append_of_mem ha
  rw [List.map_append, List.map_cons] at h
  have hafter : ∀ x ∈ after, (if key x = key a then f x else none) = none := by
    intro x hx
    apply if_neg
    intro he
    have hnotin := (List.nodup_cons.1 (List.nodup_append.1 h).2.1).1
    exact hnotin (he ▸ List.mem_map_of_mem hx)
  have hbefore : ∀ x ∈ before, (if key x = key a then f x else none) = none := by
    intro x hx
    apply if_neg
    intro he
    exact (List.nodup_append.1 h).2.2 (key x) (List.mem_map_of_mem hx) (key a)
      List.mem_cons_self he
  rw [lastWrite_append, lastWrite_cons, if_pos rfl, lastWrite_eq_none_iff.2 hafter,
    lastWrite_eq_none_iff.2 hbefore, Option.or_none, Option.none_or]

theorem lastWrite_filter {p : α → Prop} [DecidablePred p] :
    lastWrite write (l.filter p) = lastWrite (fun a => if p a then write a else none) l := by
  induction l with
  | nil => rfl
  | cons a l ih =>
    by_cases hp : p a
    · rw [List.filter_cons_of_pos (by simpa using hp), lastWrite_cons, lastWrite_cons, ih,
        if_pos hp]
    · rw [List.filter_cons_of_neg (by simpa using hp), lastWrite_cons, ih, if_neg hp,
        Option.or_none]

theorem lastWrite_forall₂ {write' : γ → Option β} {m : List γ}
    (h : List.Forall₂ (fun a c => write a = write' c) l m) :
    lastWrite write l = lastWrite write' m := by
  induction h with
  | nil => rfl
  | cons hac _ ih => rw [lastWrite_cons, lastWrite_cons, ih, hac]

/-- A map that keeps every write keeps the last one. -/
theorem lastWrite_bind {f : β → Option γ} (h : ∀ a ∈ l, ∀ b, write a = some b → (f b).isSome) :
    (lastWrite write l).bind f = lastWrite (fun a => (write a).bind f) l := by
  induction l with
  | nil => rfl
  | cons a l ih =>
    rw [lastWrite_cons, lastWrite_cons, ← ih fun x hx => h x (List.mem_cons_of_mem _ hx)]
    cases hl : lastWrite write l with
    | none => rfl
    | some b =>
      obtain ⟨before, x, after, rfl, hx, -⟩ := lastWrite_eq_some_iff.1 hl
      have hb : (f b).isSome := h x (by simp) b hx
      rw [Option.some_or, Option.bind_some, Option.or_of_isSome hb]

end

end LastWrite
