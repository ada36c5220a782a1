import Mathlib.Logic.Basic

namespace Transition
set_option autoImplicit true

/-- A transition system whose labels resolve every choice of a step: which party moves,
and what its environment answers. -/
structure System (σ α : Type) where
  init : σ → Prop
  step : σ → α → Option σ

variable {σ α : Type} {M : System σ α} {C D : σ → α → Prop} {I : σ → Prop}

/-- The states of the runs whose steps all meet the condition `C`. -/
inductive System.Reach (M : System σ α) (C : σ → α → Prop) : σ → Prop where
  | init : M.init s → Reach M C s
  | step : Reach M C s → C s a → M.step s a = some t → Reach M C t

/-- The states of all runs. -/
abbrev System.Reachable (M : System σ α) : σ → Prop := M.Reach fun _ _ => True

/-- The induction over a run, made once: `I` holds at the start and no admitted step breaks it. -/
theorem System.Reach.invariant (h : M.Reach C s) (hi : ∀ s, M.init s → I s)
    (hs : ∀ s a t, I s → C s a → M.step s a = some t → I t) : I s := by
  induction h with
  | init h0 => exact hi _ h0
  | step _ hc hst ih => exact hs _ _ _ ih hc hst

theorem System.Reach.mono (h : M.Reach C s) (hc : ∀ s a, C s a → D s a) : M.Reach D s := by
  induction h with
  | init h0 => exact .init h0
  | step _ ha hst ih => exact .step ih (hc _ _ ha) hst

theorem System.Reach.reachable (h : M.Reach C s) : M.Reachable s :=
  h.mono fun _ _ _ => trivial

/-- The state after a list of steps, when every one of them can be taken. -/
def System.run (M : System σ α) : σ → List α → Option σ
  | s, [] => some s
  | s, a :: as => (M.step s a).bind fun t => M.run t as

/-- Every step of the list meets `C` in the state it is taken from. -/
def System.Admits (M : System σ α) (C : σ → α → Prop) : σ → List α → Prop
  | _, [] => True
  | s, a :: as => C s a ∧ ∀ t, M.step s a = some t → M.Admits C t as

theorem System.Reach.extend (h : M.Reach C s) (ha : M.Admits C s as)
    (hr : M.run s as = some t) : M.Reach C t := by
  induction as generalizing s with
  | nil =>
    cases hr
    exact h
  | cons a as ih =>
    obtain ⟨u, hu, hr⟩ := Option.bind_eq_some_iff.1 hr
    exact ih (.step h ha.1 hu) (ha.2 u hu) hr

theorem System.admits_true (M : System σ α) (s : σ) (as : List α) :
    M.Admits (fun _ _ => True) s as := by
  induction as generalizing s with
  | nil => trivial
  | cons a as ih => exact ⟨trivial, fun t _ => ih t⟩

/-- What a step can break but never mend holds after a run if it did before and no step broke it. -/
theorem System.kept_iff {P : σ → Prop} {l : List α}
    (hs : ∀ s a t, M.step s a = some t → (P t ↔ P s ∧ C s a)) (hr : M.run s l = some t) :
    P t ↔ P s ∧ M.Admits C s l := by
  induction l generalizing s with
  | nil =>
    cases hr
    exact (and_iff_left trivial).symm
  | cons a l ih =>
    obtain ⟨u, hu, hr⟩ := Option.bind_eq_some_iff.1 hr
    rw [ih hr, hs s a u hu, and_assoc]
    refine and_congr_right fun _ => and_congr_right fun _ => ⟨fun h v hv => ?_, fun h => h u hu⟩
    cases hu.symm.trans hv
    exact h

/-- A schedule that runs through from an initial state ends in a reachable one. -/
theorem System.reachable_of_run {l : List α} (h : M.init s) (hr : M.run s l = some t) :
    M.Reachable t :=
  System.Reach.extend (.init h) (M.admits_true s l) hr

/-- Some schedule leads there. -/
def System.Leads (M : System σ α) (s t : σ) : Prop := ∃ l, M.run s l = some t

theorem System.Leads.refl (M : System σ α) (s : σ) : M.Leads s s := ⟨[], rfl⟩

theorem System.Leads.head (h : M.step s a = some t) (ht : M.Leads t u) : M.Leads s u := by
  obtain ⟨l, hl⟩ := ht
  exact ⟨a :: l, Option.bind_eq_some_iff.2 ⟨t, h, hl⟩⟩

theorem System.Leads.single (h : M.step s a = some t) : M.Leads s t := .head h (.refl M t)

theorem System.Leads.trans (h : M.Leads s t) (ht : M.Leads t u) : M.Leads s u := by
  obtain ⟨l, hl⟩ := h
  induction l generalizing s with
  | nil =>
    cases hl
    exact ht
  | cons a l ih =>
    obtain ⟨v, hv, hl⟩ := Option.bind_eq_some_iff.1 hl
    exact .head hv (ih hl)

/-- The same, as long as every step meets the condition. -/
def System.runIf (M : System σ α) (C : σ → α → Prop) [∀ s a, Decidable (C s a)] :
    σ → List α → Option σ
  | s, [] => some s
  | s, a :: as => if C s a then (M.step s a).bind fun t => M.runIf C t as else none

theorem System.Reach.runIf [∀ s a, Decidable (C s a)] {l : List α} (h : M.Reach C s)
    (hr : M.runIf C s l = some t) : M.Reach C t := by
  induction l generalizing s with
  | nil =>
    cases hr
    exact h
  | cons a as ih =>
    rw [System.runIf, Option.ite_none_right_eq_some] at hr
    obtain ⟨hc, hr⟩ := hr
    obtain ⟨u, hu, hr⟩ := Option.bind_eq_some_iff.1 hr
    exact ih (.step h hc hu) hr

theorem System.Admits.mono {l : List α} (h : M.Admits C s l) (hc : ∀ s a, C s a → D s a) :
    M.Admits D s l := by
  induction l generalizing s with
  | nil => trivial
  | cons a l ih => exact ⟨hc s a h.1, fun t ht => ih (h.2 t ht)⟩

theorem System.run_of_runIf [∀ s a, Decidable (C s a)] {l : List α} (hr : M.runIf C s l = some t) :
    M.run s l = some t ∧ M.Admits C s l := by
  induction l generalizing s with
  | nil => exact ⟨hr, trivial⟩
  | cons a l ih =>
    rw [System.runIf, Option.ite_none_right_eq_some] at hr
    obtain ⟨hc, hr⟩ := hr
    obtain ⟨u, hu, hr⟩ := Option.bind_eq_some_iff.1 hr
    obtain ⟨hrun, ha⟩ := ih hr
    refine ⟨Option.bind_eq_some_iff.2 ⟨u, hu, hrun⟩, hc, fun v hv => ?_⟩
    cases hu.symm.trans hv
    exact ha

end Transition
