import Mathlib.Data.List.Forall2
import Mathlib.Data.List.Basic

namespace KataAgent
set_option autoImplicit true

/-- A class of characters with its quantifier, both of them greedy. -/
inductive Piece (α : Type u) where
  | plus (p : α → Bool)
  | opt (p : α → Bool)

/-- How a piece can take the beginning of a text, and what it leaves. The preferred way is first. -/
def Piece.takes : Piece α → List α → List (List α × List α)
  | .plus _, [] => []
  | .plus p, c :: cs =>
    if p c then (Piece.takes (.plus p) cs).map (fun x => (c :: x.1, x.2)) ++ [([c], cs)] else []
  | .opt _, [] => [([], [])]
  | .opt p, c :: cs => if p c then [([c], cs), ([], c :: cs)] else [([], c :: cs)]

def Piece.Admits : Piece α → List α → Prop
  | .plus p, x => x ≠ [] ∧ ∀ c ∈ x, p c = true
  | .opt p, x => x.length ≤ 1 ∧ ∀ c ∈ x, p c = true

/-- The matches that use up the text, each as what its pieces take. -/
def matchTo : List (Piece α) → List α → List (List (List α))
  | [], [] => [[]]
  | [], _ :: _ => []
  | p :: ps, cs => (p.takes cs).flatMap fun x => (matchTo ps x.2).map (x.1 :: ·)

/-- The leftmost match up to the end of the text. -/
def search (ps : List (Piece α)) : List α → Option (List (List α))
  | [] => (matchTo ps []).head?
  | c :: cs => (matchTo ps (c :: cs)).head?.or (search ps cs)

theorem Piece.mem_takes_plus {p : α → Bool} {cs x rest : List α} :
    (x, rest) ∈ (Piece.plus p).takes cs ↔ cs = x ++ rest ∧ (Piece.plus p).Admits x := by
  induction cs generalizing x with
  | nil =>
    constructor
    · intro h
      cases h
    · intro ⟨h, hne, _⟩
      exact absurd (List.append_eq_nil_iff.1 h.symm).1 hne
  | cons c cs ih =>
    rw [Piece.takes]
    constructor
    · intro h
      obtain ⟨hc, h⟩ := List.mem_ite_nil_right.1 h
      rcases List.mem_append.1 h with h | h
      · obtain ⟨⟨y, r⟩, hmem, heq⟩ := List.mem_map.1 h
        cases heq
        obtain ⟨rfl, -, hy⟩ := ih.1 hmem
        exact ⟨rfl, List.cons_ne_nil c y, List.forall_mem_cons.2 ⟨hc, hy⟩⟩
      · cases List.mem_singleton.1 h
        exact ⟨rfl, List.cons_ne_nil c [], List.forall_mem_singleton.2 hc⟩
    · intro ⟨heq, hne, hx⟩
      obtain ⟨d, y, rfl⟩ := List.exists_cons_of_ne_nil hne
      obtain ⟨rfl, rfl⟩ := List.cons.inj heq
      obtain ⟨hc, hy⟩ := List.forall_mem_cons.1 hx
      rw [if_pos hc, List.mem_append]
      cases y with
      | nil => exact .inr (List.mem_singleton.2 rfl)
      | cons d y =>
        have hmem := ih.2 ⟨rfl, List.cons_ne_nil d y, hy⟩
        exact .inl (List.mem_map.2 ⟨_, hmem, rfl⟩)

theorem Piece.mem_takes_opt {p : α → Bool} {cs x rest : List α} :
    (x, rest) ∈ (Piece.opt p).takes cs ↔ cs = x ++ rest ∧ (Piece.opt p).Admits x := by
  have hnil : (Piece.opt p).Admits [] := ⟨Nat.zero_le 1, fun _ h => absurd h List.not_mem_nil⟩
  have hone {c : α} {y : List α} (h : (Piece.opt p).Admits (c :: y)) : y = [] ∧ p c = true :=
    ⟨List.length_eq_zero_iff.1 (Nat.le_zero.1 (Nat.le_of_succ_le_succ h.1)),
      h.2 c List.mem_cons_self⟩
  cases cs with
  | nil =>
    rw [Piece.takes, List.mem_singleton, Prod.mk.injEq]
    constructor
    · intro ⟨hx, hr⟩
      rw [hx, hr]
      exact ⟨rfl, hnil⟩
    · intro ⟨h, _⟩
      exact List.append_eq_nil_iff.1 h.symm
  | cons c cs =>
    rw [Piece.takes]
    constructor
    · intro h
      by_cases hc : p c = true
      · rw [if_pos hc] at h
        rcases List.mem_pair.1 h with h | h
        · cases h
          exact ⟨rfl, Nat.le_refl 1, List.forall_mem_singleton.2 hc⟩
        · cases h
          exact ⟨rfl, hnil⟩
      · rw [if_neg hc] at h
        cases List.mem_singleton.1 h
        exact ⟨rfl, hnil⟩
    · intro ⟨heq, hx⟩
      cases x with
      | nil =>
        cases heq
        split
        · exact List.mem_cons_of_mem _ (List.mem_singleton.2 rfl)
        · exact List.mem_singleton.2 rfl
      | cons d y =>
        obtain ⟨rfl, hd⟩ := hone hx
        cases heq
        rw [if_pos hd]
        exact List.mem_cons_self

theorem Piece.mem_takes {p : Piece α} {cs x rest : List α} :
    (x, rest) ∈ p.takes cs ↔ cs = x ++ rest ∧ p.Admits x := by
  cases p with
  | plus p => exact Piece.mem_takes_plus
  | opt p => exact Piece.mem_takes_opt

theorem mem_matchTo {ps : List (Piece α)} {cs : List α} {xs : List (List α)} :
    xs ∈ matchTo ps cs ↔ cs = xs.flatten ∧ List.Forall₂ Piece.Admits ps xs := by
  induction ps generalizing cs xs with
  | nil =>
    rw [List.forall₂_nil_left_iff]
    cases cs with
    | nil =>
      rw [matchTo, List.mem_singleton]
      constructor
      · intro h
        rw [h]
        exact ⟨rfl, rfl⟩
      · intro h
        exact h.2
    | cons c cs =>
      rw [matchTo]
      constructor
      · intro h
        cases h
      · intro ⟨h, hx⟩
        rw [hx] at h
        cases h
  | cons p ps ih =>
    rw [matchTo, List.mem_flatMap]
    constructor
    · intro ⟨⟨x, rest⟩, hx, h⟩
      obtain ⟨ys, hys, rfl⟩ := List.mem_map.1 h
      obtain ⟨rfl, hp⟩ := Piece.mem_takes.1 hx
      obtain ⟨rfl, hps⟩ := ih.1 hys
      exact ⟨rfl, .cons hp hps⟩
    · intro ⟨heq, h⟩
      cases h with
      | @cons _ x _ ys hp hps =>
        exact ⟨(x, ys.flatten), Piece.mem_takes.2 ⟨heq, hp⟩,
          List.mem_map.2 ⟨ys, ih.2 ⟨rfl, hps⟩, rfl⟩⟩

/-- What is found is a match, and there is none that starts earlier. -/
theorem search_eq_some {ps : List (Piece α)} {cs : List α} {xs : List (List α)}
    (h : search ps cs = some xs) : ∃ pre, cs = pre ++ xs.flatten ∧
      List.Forall₂ Piece.Admits ps xs ∧
      ∀ a b ys, pre = a ++ b → b ≠ [] → List.Forall₂ Piece.Admits ps ys →
        b ++ xs.flatten ≠ ys.flatten := by
  have hhere {l : List α} (hl : (matchTo ps l).head? = some xs) : ∃ pre, l = pre ++ xs.flatten ∧
      List.Forall₂ Piece.Admits ps xs ∧
      ∀ a b ys, pre = a ++ b → b ≠ [] → List.Forall₂ Piece.Admits ps ys →
        b ++ xs.flatten ≠ ys.flatten := by
    obtain ⟨heq, hxs⟩ := mem_matchTo.1 (List.mem_of_mem_head? hl)
    exact ⟨[], heq, hxs, fun a b ys hab hb => absurd (List.append_eq_nil_iff.1 hab.symm).2 hb⟩
  induction cs with
  | nil => exact hhere h
  | cons c cs ih =>
    rw [search] at h
    cases hm : (matchTo ps (c :: cs)).head? with
    | some ys =>
      rw [hm] at h
      cases h
      exact hhere hm
    | none =>
      rw [hm] at h
      obtain ⟨pre, heq, hxs, hfirst⟩ := ih h
      refine ⟨c :: pre, congrArg (c :: ·) heq, hxs, ?_⟩
      intro a b ys hab hb hys hflat
      cases a with
      | cons d a => exact hfirst a b ys (List.cons.inj hab).2 hb hys hflat
      | nil =>
        have hmem : ys ∈ matchTo ps (c :: cs) := by
          rw [mem_matchTo, ← hflat, heq]
          exact ⟨congrArg (· ++ xs.flatten) hab, hys⟩
        rw [List.head?_eq_none_iff.1 hm] at hmem
        cases hmem

theorem search_ne_none {ps : List (Piece α)} {xs : List (List α)} (pre : List α)
    (h : List.Forall₂ Piece.Admits ps xs) : search ps (pre ++ xs.flatten) ≠ none := by
  have hmem : xs ∈ matchTo ps xs.flatten := mem_matchTo.2 ⟨rfl, h⟩
  have hhead : (matchTo ps xs.flatten).head? ≠ none := by
    intro hn
    rw [List.head?_eq_none_iff.1 hn] at hmem
    cases hmem
  induction pre with
  | nil =>
    rw [List.nil_append]
    cases hcs : xs.flatten with
    | nil =>
      rw [hcs] at hhead
      exact hhead
    | cons c cs =>
      rw [hcs] at hhead
      intro hn
      exact hhead (Option.or_eq_none_iff.1 hn).1
  | cons c pre ih =>
    intro hn
    exact ih (Option.or_eq_none_iff.1 hn).2

/-- A text ends in one longest run of a class. -/
theorem append_run_inj {p : α → Bool} {x x' y y' : List α} (hx : ∀ c ∈ x.getLast?, p c = false)
    (hx' : ∀ c ∈ x'.getLast?, p c = false) (hy : ∀ c ∈ y, p c = true) (hy' : ∀ c ∈ y', p c = true)
    (h : x ++ y = x' ++ y') : x = x' ∧ y = y' := by
  have hrun {u a v : List α} (hu : ∀ c ∈ (u ++ a).getLast?, p c = false)
      (hv : ∀ c ∈ a ++ v, p c = true) : a = [] := by
    by_contra hne
    have hlast : (u ++ a).getLast? = some (a.getLast hne) := by
      rw [List.getLast?_append_of_ne_nil _ hne, List.getLast?_eq_some_getLast hne]
    have hin := hv _ (List.mem_append_left v (List.getLast_mem hne))
    rw [hu _ hlast] at hin
    cases hin
  rcases List.append_eq_append_iff.1 h with ⟨a, rfl, rfl⟩ | ⟨a, rfl, rfl⟩
  · rw [hrun hx' hy, List.append_nil, List.nil_append]
    exact ⟨rfl, rfl⟩
  · rw [hrun hx hy', List.append_nil, List.nil_append]
    exact ⟨rfl, rfl⟩

end KataAgent
