import Mathlib.Data.List.Infix

namespace Segments
set_option autoImplicit true

variable {α : Type} {sep : α} {a b xs : List α}

theorem intercalate_cons (l : List α) (ls : List (List α)) :
    ∃ rest, [sep].intercalate (l :: ls) = l ++ rest := by
  cases ls with
  | nil => exact ⟨[], by rw [List.intercalate_singleton, List.append_nil]⟩
  | cons m ls => exact ⟨_, by rw [List.intercalate_cons_cons, List.append_assoc]⟩

theorem intercalate_append_cons (l : List α) (ls ms : List (List α)) (m : List α) :
    [sep].intercalate (l :: ls ++ m :: ms) =
      [sep].intercalate (l :: ls) ++ sep :: [sep].intercalate (m :: ms) := by
  induction ls generalizing l with
  | nil => rw [List.singleton_append, List.intercalate_cons_cons, List.intercalate_singleton,
      List.append_assoc, List.singleton_append]
  | cons k ls ih =>
    rw [List.cons_append, List.cons_append, List.intercalate_cons_cons, ← List.cons_append, ih,
      List.intercalate_cons_cons, List.append_assoc, List.append_assoc, List.append_assoc]

variable [DecidableEq α]

theorem notMem_of_mem_splitOn (h : a ∈ xs.splitOn sep) : sep ∉ a := by
  induction xs generalizing a with
  | nil =>
    rw [List.splitOn_nil, List.mem_singleton] at h
    rw [h]
    exact List.not_mem_nil
  | cons x xs ih =>
    rw [List.splitOn_cons_eq_if_modifyHead] at h
    split at h
    · rcases List.mem_cons.1 h with rfl | h
      · exact List.not_mem_nil
      · exact ih h
    · rename_i hx
      obtain ⟨l, ls, hl⟩ := List.exists_cons_of_ne_nil (List.splitOn_ne_nil sep xs)
      rw [hl, List.modifyHead_cons] at h
      rcases List.mem_cons.1 h with rfl | h
      · intro hm
        rcases List.mem_cons.1 hm with rfl | hm
        · exact hx BEq.rfl
        · exact ih (hl ▸ List.mem_cons_self) hm
      · exact ih (hl ▸ List.mem_cons_of_mem l h)

/-- Everything but the separators is in the segments. -/
theorem exists_mem_splitOn {x : α} (hx : x ∈ xs) (hs : x ≠ sep) :
    ∃ a ∈ xs.splitOn sep, x ∈ a := by
  induction xs with
  | nil => cases hx
  | cons y xs ih =>
    rw [List.splitOn_cons_eq_if_modifyHead]
    split
    · rename_i hy
      rcases List.mem_cons.1 hx with rfl | hx
      · exact absurd (eq_of_beq hy) hs
      · obtain ⟨a, ha, hxa⟩ := ih hx
        exact ⟨a, List.mem_cons_of_mem _ ha, hxa⟩
    · obtain ⟨l, ls, hl⟩ := List.exists_cons_of_ne_nil (List.splitOn_ne_nil sep xs)
      rw [hl, List.modifyHead_cons]
      rcases List.mem_cons.1 hx with rfl | hx
      · exact ⟨x :: l, List.mem_cons_self, List.mem_cons_self⟩
      · obtain ⟨a, ha, hxa⟩ := ih hx
        rw [hl] at ha
        rcases List.mem_cons.1 ha with rfl | ha
        · exact ⟨y :: a, List.mem_cons_self, List.mem_cons_of_mem y hxa⟩
        · exact ⟨a, List.mem_cons_of_mem _ ha, hxa⟩

/-- The first segment begins with what comes before the first separator. -/
theorem splitOn_append (hb : sep ∉ b) (xs : List α) :
    ∃ next post, (b ++ xs).splitOn sep = next :: post ∧ b <+: next := by
  induction b with
  | nil =>
    obtain ⟨l, ls, hl⟩ := List.exists_cons_of_ne_nil (List.splitOn_ne_nil sep xs)
    exact ⟨l, ls, hl, List.nil_prefix⟩
  | cons y b ih =>
    obtain ⟨next, post, hs, hp⟩ := ih fun h => hb (List.mem_cons_of_mem y h)
    have hy : ¬(y == sep) = true := fun h => hb (eq_of_beq h ▸ List.mem_cons_self)
    rw [List.cons_append, List.splitOn_cons_eq_if_modifyHead, if_neg hy, hs]
    exact ⟨y :: next, post, rfl, (List.prefix_cons_inj y).2 hp⟩

/-- `a` is a segment of the list, and the next segment begins with `b`. -/
def Consecutive (sep : α) (a b xs : List α) : Prop :=
  ∃ pre next post, xs.splitOn sep = pre ++ a :: next :: post ∧ b <+: next

theorem consecutive_iff (hb : sep ∉ b) : Consecutive sep a b xs ↔
    sep ∉ a ∧ (a ++ sep :: b <+: xs ∨ sep :: (a ++ sep :: b) <:+: xs) := by
  constructor
  · rintro ⟨pre, next, post, hs, hnext, rfl⟩
    have ha : a ∈ xs.splitOn sep := by
      rw [hs]
      exact List.mem_append_right pre List.mem_cons_self
    apply And.intro (notMem_of_mem_splitOn ha)
    have hcons : ∃ rest, [sep].intercalate ((b ++ hnext) :: post) = b ++ hnext ++ rest :=
      intercalate_cons (b ++ hnext) post
    obtain ⟨rest, hr⟩ := hcons
    have hxs : xs = [sep].intercalate (pre ++ a :: (b ++ hnext) :: post) := by
      rw [← hs, List.intercalate_splitOn]
    have htail : [sep].intercalate (a :: (b ++ hnext) :: post) =
        a ++ sep :: b ++ (hnext ++ rest) := by
      rw [List.intercalate_cons_cons, hr]
      simp only [List.append_assoc, List.cons_append, List.nil_append]
    cases pre with
    | nil =>
      rw [List.nil_append, htail] at hxs
      exact .inl ⟨_, hxs.symm⟩
    | cons p pre =>
      rw [intercalate_append_cons, htail] at hxs
      refine .inr ⟨[sep].intercalate (p :: pre), hnext ++ rest, ?_⟩
      rw [hxs, List.append_assoc, List.cons_append]
  · rintro ⟨ha, ⟨rest, rfl⟩ | ⟨front, rest, rfl⟩⟩
    · obtain ⟨next, post, hs, hp⟩ := splitOn_append hb rest
      apply Exists.intro []
      refine ⟨next, post, ?_, hp⟩
      rw [List.append_assoc, List.cons_append, List.splitOn_append_cons_self_of_not_mem ha, hs]
      rfl
    · obtain ⟨next, post, hs, hp⟩ := splitOn_append hb rest
      refine ⟨front.splitOn sep, next, post, ?_, hp⟩
      rw [List.append_assoc, List.cons_append, List.splitOn_append_cons_self, List.append_assoc,
        List.cons_append, List.splitOn_append_cons_self_of_not_mem ha, hs]

end Segments
