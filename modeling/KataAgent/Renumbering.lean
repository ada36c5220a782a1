import Mathlib.Data.List.Nodup

namespace Renumbering
set_option autoImplicit true

variable {α : Type} [DecidableEq α]

def rewrite (x : α) (p : α × α) : α := if x = p.1 then p.2 else x

/-- Apply the pairs one after another: a value written by one pair is seen by the next. -/
def rewriteAll (ps : List (α × α)) (x : α) : α := ps.foldl rewrite x

/-- What applying all pairs at once demands of the value `y` that `x` ends with. -/
def Simultaneous (ps : List (α × α)) (x y : α) : Prop :=
  (∀ p ∈ ps, p.1 = x → y = p.2) ∧ ((∀ p ∈ ps, p.1 ≠ x) → y = x)

/-- The value that a pair writes for `x` is left alone by the pairs after it, or comes back. -/
def Settled (ps : List (α × α)) (x : α) : Prop :=
  ∀ pre p post, ps = pre ++ p :: post → p.1 = x → rewriteAll post p.2 = p.2

@[simp] theorem rewriteAll_nil (x : α) : rewriteAll [] x = x := rfl

@[simp] theorem rewriteAll_cons (p : α × α) (ps : List (α × α)) (x : α) :
    rewriteAll (p :: ps) x = rewriteAll ps (rewrite x p) := rfl

theorem rewriteAll_append (ps qs : List (α × α)) (x : α) :
    rewriteAll (ps ++ qs) x = rewriteAll qs (rewriteAll ps x) :=
  List.foldl_append

theorem rewriteAll_of_forall_ne {ps : List (α × α)} {x : α} (h : ∀ p ∈ ps, p.1 ≠ x) :
    rewriteAll ps x = x := by
  induction ps with
  | nil => rfl
  | cons p ps ih =>
    have hp : rewrite x p = x := if_neg fun he => h p List.mem_cons_self he.symm
    rw [rewriteAll_cons, hp]
    exact ih fun q hq => h q (List.mem_cons_of_mem _ hq)

theorem rewriteAll_of_forall_snd {ps : List (α × α)} {y : α} (h : ∀ p ∈ ps, p.2 = y) (x : α) :
    rewriteAll ps x = if x ∈ ps.map Prod.fst then y else x := by
  induction ps generalizing x with
  | nil => rfl
  | cons p ps ih =>
    have ih := ih fun q hq => h q (List.mem_cons_of_mem _ hq)
    rw [rewriteAll_cons, rewrite, h p List.mem_cons_self]
    by_cases hx : x = p.1
    · rw [if_pos hx, ih, ite_self, if_pos]
      rw [hx]
      exact List.mem_cons_self
    · rw [if_neg hx, ih]
      simp only [List.map_cons, List.mem_cons, hx, false_or]

/-- With distinct sources only the pair for `x` itself rewrites `x`. -/
theorem rewriteAll_of_split {pre post : List (α × α)} {p : α × α}
    (hd : ((pre ++ p :: post).map Prod.fst).Nodup) :
    rewriteAll (pre ++ p :: post) p.1 = rewriteAll post p.2 := by
  rw [List.map_append, List.map_cons, List.nodup_append] at hd
  have hpre : rewriteAll pre p.1 = p.1 := by
    apply rewriteAll_of_forall_ne
    intro q hq
    exact hd.2.2 q.1 (List.mem_map_of_mem hq) p.1 List.mem_cons_self
  rw [rewriteAll_append, hpre, rewriteAll_cons, rewrite, if_pos rfl]

theorem Simultaneous.unique {ps qs : List (α × α)} {x y z : α} (hy : Simultaneous ps x y)
    (hz : Simultaneous qs x z) (h : ∀ p, p ∈ ps ↔ p ∈ qs) : y = z := by
  by_cases hx : ∃ p ∈ ps, p.1 = x
  · obtain ⟨p, hp, hpx⟩ := hx
    exact (hy.1 p hp hpx).trans (hz.1 p ((h p).1 hp) hpx).symm
  · have hn : ∀ p ∈ ps, p.1 ≠ x := fun p hp hpx => hx ⟨p, hp, hpx⟩
    exact (hy.2 hn).trans (hz.2 fun p hp => hn p ((h p).2 hp)).symm

/-- One after another agrees with all at once exactly at the settled values. -/
theorem simultaneous_rewriteAll_iff {ps : List (α × α)} {x : α}
    (hd : (ps.map Prod.fst).Nodup) : Simultaneous ps x (rewriteAll ps x) ↔ Settled ps x := by
  constructor
  · intro h pre p post he hx
    subst hx
    have hp : p ∈ ps := by
      rw [he]
      exact List.mem_append_right _ List.mem_cons_self
    have hv := h.1 p hp rfl
    rw [he] at hd hv
    rwa [rewriteAll_of_split hd] at hv
  · intro h
    refine ⟨?_, rewriteAll_of_forall_ne⟩
    intro p hp hx
    subst hx
    obtain ⟨pre, post, he⟩ := List.append_of_mem hp
    have hs := h pre p post he rfl
    rw [he] at hd ⊢
    rw [rewriteAll_of_split hd, hs]

end Renumbering
