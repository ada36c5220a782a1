import Mathlib.Data.List.Duplicate
import Mathlib.Data.List.Infix

namespace MountStacks
set_option autoImplicit true

/-- Mounts with the places of their mount points, a place being the list of the names on the way up.
A cover is a mount that is made to hide what is at a place. -/
structure Mounting (α M : Type) where
  place : M → List α
  cover : List α → M
  place_cover : place (cover q) = q

/-- What becomes of what a place shows. -/
inductive Handling where
  | detached
  | covered
  deriving DecidableEq

section
variable {α M : Type} [DecidableEq α]

/-- The mount that a path comes to. Of the mounts, the latest first, the latest on its way hides
those before. -/
def Mounting.view (k : Mounting α M) (T : List M) (p : List α) : Option M :=
  T.find? fun m => decide (k.place m <:+ p)

/-- The path comes to the root of a mount. -/
def Mounting.Rooted (k : Mounting α M) (T : List M) (p : List α) : Prop :=
  ∃ m, k.view T p = some m ∧ k.place m = p

/-- The mount is what the path of its mount point comes to. -/
def Mounting.Shown (k : Mounting α M) (T : List M) (m : M) : Prop :=
  k.view T (k.place m) = some m

/-- Take off the mount at the root of which a path ends, and with it what has been mounted there or
below since. -/
def Mounting.detach (k : Mounting α M) (q : List α) : List M → List M
  | [] => []
  | m :: T =>
    if k.place m <:+ q then T
    else if q <:+ k.place m then k.detach q T
    else m :: k.detach q T

def Mounting.handle (k : Mounting α M) (T : List M) : List α × Handling → List M
  | (q, .detached) => k.detach q T
  | (q, .covered) => k.cover q :: T

/-- One place is handled after the other. -/
def Mounting.handleAll (k : Mounting α M) (steps : List (List α × Handling)) (T : List M) :
    List M :=
  steps.foldl k.handle T

/-- Only the root of a mount is detached. -/
def Mounting.Legal (k : Mounting α M) : List (List α × Handling) → List M → Prop
  | [], _ => True
  | x :: steps, T =>
    (x.2 = .detached → k.Rooted T x.1) ∧ k.Legal steps (k.handle T x)

/-- Where a step brings the mount into view, a step that is still to come is at its place or
above. -/
def Mounting.Returns (k : Mounting α M) (m : M) : List (List α × Handling) → List M → Prop
  | [], _ => True
  | x :: steps, T =>
    (¬ k.Shown T m → k.Shown (k.handle T x) m → ∃ y ∈ steps, y.1 <:+ k.place m) ∧
      k.Returns m steps (k.handle T x)

/-- No step takes the mount off. -/
def Mounting.Spares (k : Mounting α M) (m : M) : List (List α × Handling) → List M → Prop
  | [], _ => True
  | x :: steps, T => (m ∈ T → m ∈ k.handle T x) ∧ k.Spares m steps (k.handle T x)

variable {k : Mounting α M} {T : List M} {m c : M} {p q r : List α}
variable {steps : List (List α × Handling)}

instance : Decidable (k.Rooted T p) :=
  decidable_of_iff (∃ m ∈ k.view T p, k.place m = p) Iff.rfl

instance [DecidableEq M] : Decidable (k.Shown T m) := inferInstanceAs (Decidable (_ = _))

theorem Mounting.view_cons_pos (h : k.place m <:+ p) : k.view (m :: T) p = some m :=
  List.find?_cons_of_pos (decide_eq_true h)

theorem Mounting.view_cons_neg (h : ¬ k.place m <:+ p) : k.view (m :: T) p = k.view T p :=
  List.find?_cons_of_neg (by simpa using h)

theorem Mounting.Rooted.tail (h : k.Rooted (m :: T) q) (hm : ¬ k.place m <:+ q) :
    k.Rooted T q := by
  obtain ⟨v, hv, he⟩ := h
  rw [Mounting.view_cons_neg hm] at hv
  exact ⟨v, hv, he⟩

theorem Mounting.Rooted.head (h : k.Rooted (m :: T) q) (hm : k.place m <:+ q) :
    k.place m = q := by
  obtain ⟨v, hv, he⟩ := h
  rw [Mounting.view_cons_pos hm] at hv
  cases hv
  exact he

theorem Mounting.detach_sublist (k : Mounting α M) (q : List α) (T : List M) :
    (k.detach q T).Sublist T := by
  induction T with
  | nil => exact List.Sublist.refl []
  | cons m T ih =>
    rw [Mounting.detach]
    split
    · exact List.sublist_cons_self m T
    · split
      · exact ih.trans (List.sublist_cons_self m T)
      · exact ih.cons_cons m

/-- What is not below the place is seen as before. -/
theorem Mounting.view_detach (h : k.Rooted T q) (hp : ¬ q <:+ p) :
    k.view (k.detach q T) p = k.view T p := by
  induction T with
  | nil => rfl
  | cons m T ih =>
    rw [Mounting.detach]
    split
    case isTrue hm =>
      have hne : ¬ k.place m <:+ p := by
        rw [h.head hm]
        exact hp
      exact (Mounting.view_cons_neg hne).symm
    case isFalse hm =>
      have ih := ih (h.tail hm)
      split
      case isTrue hq =>
        have hne : ¬ k.place m <:+ p := fun hmp => hp (hq.trans hmp)
        rw [ih, Mounting.view_cons_neg hne]
      case isFalse =>
        by_cases hmp : k.place m <:+ p
        · rw [Mounting.view_cons_pos hmp, Mounting.view_cons_pos hmp]
        · rw [Mounting.view_cons_neg hmp, Mounting.view_cons_neg hmp, ih]

theorem Mounting.mem_of_view (h : k.view T p = some m) : m ∈ T ∧ k.place m <:+ p := by
  have hp := List.find?_some (p := fun m => decide (k.place m <:+ p)) h
  exact ⟨List.mem_of_find?_eq_some h, of_decide_eq_true hp⟩

/-- A path comes to a mount as soon as some mount point is on its way. -/
theorem Mounting.exists_view (hc : c ∈ T) (hp : k.place c <:+ p) :
    ∃ d ∈ T, k.view T p = some d := by
  have hne : k.view T p ≠ none := by
    rw [Mounting.view, ne_eq, List.find?_eq_none]
    intro hall
    exact hall c hc (decide_eq_true hp)
  obtain ⟨d, hd⟩ := Option.ne_none_iff_exists'.1 hne
  exact ⟨d, (Mounting.mem_of_view hd).1, hd⟩

/-- A mount that is shown below the place, or at it, is gone. -/
theorem Mounting.notMem_detach (h : k.Rooted T q) (hd : ¬ List.Duplicate m T) (hs : k.Shown T m)
    (hq : q <:+ k.place m) : m ∉ k.detach q T := by
  induction T with
  | nil => exact List.not_mem_nil
  | cons x T ih =>
    rw [List.duplicate_cons_iff, not_or] at hd
    have hx : k.place x <:+ k.place m → x = m := by
      intro hxm
      rw [Mounting.Shown, Mounting.view_cons_pos hxm] at hs
      exact Option.some_inj.1 hs
    have hrest : x = m → m ∉ T := fun he hm => hd.1 ⟨he, hm⟩
    rw [Mounting.detach]
    split
    case isTrue hxq =>
      exact hrest (hx (hxq.trans hq))
    case isFalse hxq =>
      by_cases hxm : x = m
      · rw [if_pos (hxm ▸ hq)]
        exact fun hm => hrest hxm ((k.detach_sublist q T).mem hm)
      · have hs' : k.Shown T m := by
          rw [Mounting.Shown, Mounting.view_cons_neg fun h => hxm (hx h)] at hs
          exact hs
        have ih := ih (h.tail hxq) hd.2 hs'
        split
        · exact ih
        · exact List.not_mem_cons_of_ne_of_not_mem (Ne.symm hxm) ih

theorem Mounting.mem_detach (h : k.Rooted T q) (hm : m ∈ T) (hq : ¬ q <:+ k.place m) :
    m ∈ k.detach q T := by
  induction T with
  | nil => cases hm
  | cons x T ih =>
    rw [Mounting.detach]
    split
    case isTrue hxq =>
      rcases List.mem_cons.1 hm with rfl | hm
      · rw [h.head hxq] at hq
        exact absurd List.suffix_rfl hq
      · exact hm
    case isFalse hxq =>
      rcases List.mem_cons.1 hm with rfl | hm
      · rw [if_neg hq]
        exact List.mem_cons_self
      · have ih := ih (h.tail hxq) hm
        split
        · exact ih
        · exact List.mem_cons_of_mem x ih

theorem Mounting.Shown.mem (h : k.Shown T m) : m ∈ T := (Mounting.mem_of_view h).1

/-- A step at the place of a mount that is shown, or above it, hides it. -/
theorem Mounting.Shown.handle {x : List α × Handling} (hl : x.2 = .detached → k.Rooted T x.1)
    (hd : ¬ List.Duplicate m T) (hm : ∀ q, m ≠ k.cover q) (hs : k.Shown T m) :
    k.Shown (k.handle T x) m ↔ ¬ x.1 <:+ k.place m := by
  obtain ⟨q, a⟩ := x
  cases a with
  | detached =>
    have hr := hl rfl
    constructor
    · intro h hq
      exact Mounting.notMem_detach hr hd hs hq h.mem
    · intro hq
      rw [Mounting.handle, Mounting.Shown, Mounting.view_detach hr hq]
      exact hs
  | covered =>
    rw [Mounting.handle, Mounting.Shown]
    by_cases hq : q <:+ k.place m
    · rw [Mounting.view_cons_pos (by rw [k.place_cover]; exact hq)]
      exact iff_of_false (fun h => hm q (Option.some_inj.1 h).symm) (not_not.2 hq)
    · rw [Mounting.view_cons_neg (by rw [k.place_cover]; exact hq)]
      exact iff_of_true hs hq

theorem Mounting.duplicate_handle {x : List α × Handling} (hd : ¬ List.Duplicate m T)
    (hm : ∀ q, m ≠ k.cover q) : ¬ List.Duplicate m (k.handle T x) := by
  obtain ⟨q, a⟩ := x
  cases a with
  | detached => exact fun h => hd (h.mono_sublist (k.detach_sublist q T))
  | covered =>
    rw [Mounting.handle, List.duplicate_cons_iff]
    rintro (⟨he, -⟩ | h)
    · exact hm q he.symm
    · exact hd h

/-- In the end a mount is hidden exactly if, whenever it is in view, a step that is still to come is
at its place or above. -/
theorem Mounting.hidden_iff (hl : k.Legal steps T) (hd : ¬ List.Duplicate m T)
    (hm : ∀ q, m ≠ k.cover q) : ¬ k.Shown (k.handleAll steps T) m ↔
      (k.Shown T m → ∃ y ∈ steps, y.1 <:+ k.place m) ∧ k.Returns m steps T := by
  induction steps generalizing T with
  | nil => simp [Mounting.handleAll, Mounting.Returns]
  | cons x steps ih =>
    have hstep : k.handleAll (x :: steps) T = k.handleAll steps (k.handle T x) := rfl
    rw [hstep, ih hl.2 (Mounting.duplicate_handle hd hm), Mounting.Returns,
      List.exists_mem_cons_iff]
    by_cases hs : k.Shown T m
    · rw [hs.handle hl.1 hd hm]
      simp only [hs, true_imp_iff, not_true_eq_false, false_imp_iff, true_and]
      exact and_congr_left fun _ => Classical.or_iff_not_imp_left.symm
    · simp only [hs, false_imp_iff, not_false_eq_true, true_imp_iff, true_and]

/-- Only a cover is ever added. -/
theorem Mounting.mem_of_handle {x : List α × Handling} (h : m ∈ k.handle T x) :
    m ∈ T ∨ m = k.cover x.1 := by
  obtain ⟨q, a⟩ := x
  cases a with
  | detached => exact .inl ((k.detach_sublist q T).mem h)
  | covered => exact (List.mem_cons.1 h).symm

theorem Mounting.mem_of_handleAll (h : m ∈ k.handleAll steps T) :
    m ∈ T ∨ ∃ x ∈ steps, m = k.cover x.1 := by
  induction steps generalizing T with
  | nil => exact .inl h
  | cons x steps ih =>
    rw [List.exists_mem_cons_iff]
    rcases ih h with hm | hm
    · exact (Mounting.mem_of_handle hm).imp_right .inl
    · exact .inr (.inr hm)

/-- A mount is still there exactly if no step has taken it off. -/
theorem Mounting.mem_handleAll (hm : ∀ q, m ≠ k.cover q) (h : m ∈ T) :
    m ∈ k.handleAll steps T ↔ k.Spares m steps T := by
  induction steps generalizing T with
  | nil => exact iff_of_true h trivial
  | cons x steps ih =>
    have hstep : k.handleAll (x :: steps) T = k.handleAll steps (k.handle T x) := rfl
    rw [hstep, Mounting.Spares]
    by_cases hx : m ∈ k.handle T x
    · rw [ih hx, and_iff_right fun _ => hx]
    · have hend : m ∉ k.handleAll steps (k.handle T x) := by
        intro hend
        rcases Mounting.mem_of_handleAll hend with hin | ⟨y, -, he⟩
        · exact hx hin
        · exact hm _ he
      exact iff_of_false hend fun hspares => hx (hspares.1 h)

theorem Mounting.view_append (C L : List M) : k.view (C ++ L) p = (k.view C p).or (k.view L p) :=
  List.find?_append

/-- A detach takes a mount off the upper or off the lower part of a stack. -/
theorem Mounting.detach_append {C L : List M} (h : k.Rooted (C ++ L) q) :
    ∃ C', C'.Sublist C ∧
      ((∃ c ∈ C, k.place c = q) ∧ k.detach q (C ++ L) = C' ++ L ∨
        k.Rooted L q ∧ k.detach q (C ++ L) = C' ++ k.detach q L) := by
  induction C with
  | nil => exact ⟨[], List.Sublist.refl [], .inr ⟨h, rfl⟩⟩
  | cons c C ih =>
    rw [List.cons_append] at h ⊢
    rw [Mounting.detach]
    by_cases hc : k.place c <:+ q
    · rw [if_pos hc]
      exact ⟨C, List.sublist_cons_self c C, .inl ⟨⟨c, List.mem_cons_self, h.head hc⟩, rfl⟩⟩
    · obtain ⟨C', hs, hd⟩ := ih (h.tail hc)
      rw [if_neg hc, List.exists_mem_cons_iff]
      by_cases hq : q <:+ k.place c
      · rw [if_pos hq]
        exact ⟨C', hs.trans (List.sublist_cons_self c C), hd.imp_left fun hd => ⟨.inr hd.1, hd.2⟩⟩
      · rw [if_neg hq]
        refine ⟨c :: C', hs.cons_cons c, ?_⟩
        rcases hd with ⟨hc, hd⟩ | ⟨hr, hd⟩
        · exact .inl ⟨.inr hc, by rw [hd, List.cons_append]⟩
        · exact .inr ⟨hr, by rw [hd, List.cons_append]⟩

/-- The covers on a stack are elsewhere, and the path comes to a mount all the same: it is not
covered. -/
theorem Mounting.shown_of_rooted {C L : List M} (hs : k.Shown L m) (hm : r <:+ k.place m)
    (hC : ∀ c ∈ C, ¬ r <:+ k.place c) (hr : k.Rooted (C ++ L) r) : k.Shown (C ++ L) m := by
  rw [Mounting.Shown, Mounting.view_append]
  cases hv : k.view C (k.place m) with
  | none => exact hs
  | some c =>
    obtain ⟨hc, hcm⟩ := Mounting.mem_of_view hv
    have hcr : k.place c <:+ r :=
      (List.suffix_or_suffix_of_suffix hcm hm).resolve_right (hC c hc)
    obtain ⟨d, hdC, hd⟩ := Mounting.exists_view hc hcr
    obtain ⟨v, hv, he⟩ := hr
    rw [Mounting.view_append, hd, Option.some_or] at hv
    cases hv
    have hnot := hC d hdC
    rw [he] at hnot
    exact absurd List.suffix_rfl hnot

/-- Of what is at a place or below it and is spared, what is shown stays so, when in the end the place
is still the root of a mount and no step was there or below. -/
theorem Mounting.shown_of_spared {C L : List M} (hl : k.Legal steps (C ++ L))
    (hsp : k.Spares m steps (C ++ L)) (hd : ¬ List.Duplicate m L) (hmc : ∀ q, m ≠ k.cover q)
    (hs : k.Shown L m) (hm : r <:+ k.place m) (hC : ∀ c ∈ C, c = k.cover (k.place c))
    (hCr : ∀ c ∈ C, ¬ r <:+ k.place c) (hsteps : ∀ x ∈ steps, ¬ r <:+ x.1)
    (hr : k.Rooted (k.handleAll steps (C ++ L)) r) : k.Shown (k.handleAll steps (C ++ L)) m := by
  induction steps generalizing C L with
  | nil => exact Mounting.shown_of_rooted hs hm hCr hr
  | cons x steps ih =>
    obtain ⟨q, a⟩ := x
    obtain ⟨hq, hrest⟩ := List.forall_mem_cons.1 hsteps
    have hstep : k.handleAll ((q, a) :: steps) (C ++ L) =
        k.handleAll steps (k.handle (C ++ L) (q, a)) := rfl
    rw [hstep] at hr ⊢
    obtain ⟨hroot, hl⟩ := hl
    obtain ⟨hkeep, hsp⟩ := hsp
    cases a with
    | covered =>
      have hC' : ∀ c ∈ k.cover q :: C, c = k.cover (k.place c) := by
        rw [List.forall_mem_cons, k.place_cover]
        exact ⟨rfl, hC⟩
      have hCr' : ∀ c ∈ k.cover q :: C, ¬ r <:+ k.place c := by
        rw [List.forall_mem_cons, k.place_cover]
        exact ⟨hq, hCr⟩
      exact ih (C := k.cover q :: C) hl hsp hd hs hC' hCr' hrest hr
    | detached =>
      obtain ⟨C', hsub, hdetach⟩ := Mounting.detach_append (hroot rfl)
      have hC' : ∀ c ∈ C', c = k.cover (k.place c) := fun c hc => hC c (hsub.mem hc)
      have hCr' : ∀ c ∈ C', ¬ r <:+ k.place c := fun c hc => hCr c (hsub.mem hc)
      change k.Rooted (k.handleAll steps (k.detach q (C ++ L))) r at hr
      change k.Shown (k.handleAll steps (k.detach q (C ++ L))) m
      change k.Legal steps (k.detach q (C ++ L)) at hl
      change k.Spares m steps (k.detach q (C ++ L)) at hsp
      rcases hdetach with ⟨-, hdetach⟩ | ⟨hrooted, hdetach⟩
      · rw [hdetach] at hr hl hsp ⊢
        exact ih hl hsp hd hs hC' hCr' hrest hr
      · have hin : m ∈ k.detach q L := by
          have hmem : m ∈ k.detach q (C ++ L) := hkeep (List.mem_append_right C hs.mem)
          rw [hdetach] at hmem
          exact (List.mem_append.1 hmem).resolve_left fun hc => hmc _ (hC' m hc)
        have hnot : ¬ q <:+ k.place m :=
          fun hqm => Mounting.notMem_detach hrooted hd hs hqm hin
        have hs' : k.Shown (k.detach q L) m := by
          rw [Mounting.Shown, Mounting.view_detach hrooted hnot]
          exact hs
        rw [hdetach] at hr hl hsp ⊢
        exact ih hl hsp (fun h => hd (h.mono_sublist (k.detach_sublist q L))) hs' hC' hCr'
          hrest hr

/-- What no step is at or above is spared. -/
theorem Mounting.spares_of_apart (hl : k.Legal steps T)
    (h : ∀ x ∈ steps, ¬ x.1 <:+ k.place m) : k.Spares m steps T := by
  induction steps generalizing T with
  | nil => trivial
  | cons x steps ih =>
    obtain ⟨hx, hrest⟩ := List.forall_mem_cons.1 h
    obtain ⟨q, a⟩ := x
    refine ⟨fun hm => ?_, ih hl.2 hrest⟩
    cases a with
    | detached => exact Mounting.mem_detach (hl.1 rfl) hm hx
    | covered => exact List.mem_cons_of_mem _ hm

/-- What is in view under a new cover was so before it. -/
theorem Mounting.shown_of_cover (hm : m ≠ k.cover q) (h : k.Shown (k.cover q :: T) m) :
    k.Shown T m := by
  rw [Mounting.Shown] at h
  by_cases hq : k.place (k.cover q) <:+ k.place m
  · rw [Mounting.view_cons_pos hq] at h
    exact absurd (Option.some_inj.1 h).symm hm
  · rwa [Mounting.view_cons_neg hq] at h

/-- A detach on a stack of covers brings nothing into view that was in view below them: what it took
off the covers was not over it. -/
theorem Mounting.shown_of_detach {C C' L : List M} (hroot : k.Rooted (C ++ L) q)
    (hsub : C'.Sublist C) (hdetach : k.detach q (C ++ L) = C' ++ k.detach q L)
    (hmc : ∀ q, m ≠ k.cover q) (hC : ∀ c ∈ C, c = k.cover (k.place c))
    (hL : ∀ x ∈ L, ∀ q, x ≠ k.cover q) (hs : k.Shown L m) (hq : ¬ q <:+ k.place m)
    (h : k.Shown (C' ++ k.detach q L) m) : k.Shown (C ++ L) m := by
  rw [Mounting.Shown, Mounting.view_append]
  cases hv : k.view C (k.place m) with
  | none => exact hs
  | some c =>
    obtain ⟨hc, hcm⟩ := Mounting.mem_of_view hv
    have hin : c ∈ k.detach q (C ++ L) :=
      Mounting.mem_detach hroot (List.mem_append_left L hc) fun hqc => hq (hqc.trans hcm)
    rw [hdetach] at hin
    have hcC : c ∈ C' := (List.mem_append.1 hin).resolve_right fun hcL =>
      hL c ((k.detach_sublist q L).mem hcL) _ (hC c hc)
    obtain ⟨d, hdC, hd⟩ := Mounting.exists_view hcC hcm
    rw [Mounting.Shown, Mounting.view_append, hd, Option.some_or] at h
    cases h
    exact absurd (hC m (hsub.mem hdC)) (hmc _)

/-- Where every mount was shown at first and no place is handled twice, nothing comes back into
view. -/
theorem Mounting.returns_of_shown {C L : List M} (hl : k.Legal steps (C ++ L))
    (hn : (steps.map Prod.fst).Nodup) (hd : ¬ List.Duplicate m L) (hmc : ∀ q, m ≠ k.cover q)
    (hs : m ∈ L → k.Shown L m) (hC : ∀ c ∈ C, c = k.cover (k.place c))
    (hL : ∀ x ∈ L, ∀ q, x ≠ k.cover q) (hCs : ∀ c ∈ C, k.place c ∉ steps.map Prod.fst) :
    k.Returns m steps (C ++ L) := by
  induction steps generalizing C L with
  | nil => trivial
  | cons x steps ih =>
    obtain ⟨q, a⟩ := x
    obtain ⟨hroot, hl⟩ := hl
    rw [List.map_cons, List.nodup_cons] at hn
    have hrest : ∀ c ∈ C, k.place c ∉ steps.map Prod.fst :=
      fun c hc hm => hCs c hc (List.mem_cons_of_mem q hm)
    cases a with
    | covered =>
      constructor
      · exact fun hno hyes => absurd (Mounting.shown_of_cover (hmc q) hyes) hno
      · apply ih (C := k.cover q :: C) hl hn.2 hd hs
        · rw [List.forall_mem_cons, k.place_cover]
          exact ⟨rfl, hC⟩
        · exact hL
        · rw [List.forall_mem_cons, k.place_cover]
          exact ⟨hn.1, hrest⟩
    | detached =>
      obtain ⟨C', hsub, ⟨⟨c, hc, he⟩, -⟩ | ⟨hrooted, hdetach⟩⟩ :=
        Mounting.detach_append (hroot rfl)
      · exact absurd (by rw [he]; exact List.mem_cons_self) (hCs c hc)
      have hkept : m ∈ k.detach q L → k.Shown L m ∧ ¬ q <:+ k.place m := by
        intro hm
        have hsL := hs ((k.detach_sublist q L).mem hm)
        exact ⟨hsL, fun hq => Mounting.notMem_detach hrooted hd hsL hq hm⟩
      constructor
      · intro hno hyes
        change k.Shown (k.detach q (C ++ L)) m at hyes
        rw [hdetach] at hyes
        have hm : m ∈ k.detach q L :=
          (List.mem_append.1 hyes.mem).resolve_left fun hc => hmc _ (hC m (hsub.mem hc))
        obtain ⟨hsL, hq⟩ := hkept hm
        exact absurd (Mounting.shown_of_detach (hroot rfl) hsub hdetach hmc hC hL hsL hq hyes) hno
      · change k.Returns m steps (k.detach q (C ++ L))
        change k.Legal steps (k.detach q (C ++ L)) at hl
        rw [hdetach] at hl ⊢
        apply ih hl hn.2 (fun h => hd (h.mono_sublist (k.detach_sublist q L)))
        · intro hm
          obtain ⟨hsL, hq⟩ := hkept hm
          rw [Mounting.Shown, Mounting.view_detach hrooted hq]
          exact hsL
        · exact fun c hc => hC c (hsub.mem hc)
        · exact fun x hx => hL x ((k.detach_sublist q L).mem hx)
        · exact fun c hc => hrest c (hsub.mem hc)

end

end MountStacks
