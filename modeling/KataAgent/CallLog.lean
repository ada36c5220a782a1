import Mathlib.Data.List.Basic
import KataAgent.Fallible

namespace Fallible
set_option autoImplicit true

variable {κ ε α β γ : Type} {P : κ → Prop} {V : α → Prop} {W : β → Prop} {h : List κ} {c : κ}

/-- The computation only adds entries with the property `P` to a log, the latest first. -/
def Act.Logs (P : κ → Prop) (x : Act (List κ) ε α) : Prop :=
  ∀ h, ∃ new, (x h).2 = new ++ h ∧ ∀ c ∈ new, P c

theorem Act.Logs.pure (a : α) : Act.Logs P (pure a : Act (List κ) ε α) := fun _ => ⟨[], rfl, nofun⟩

theorem Act.Logs.read (g : List κ → α) : Act.Logs P (Act.read g : Act (List κ) ε α) :=
  fun _ => ⟨[], rfl, nofun⟩

theorem Act.Logs.lift (o : Outcome ε α) : Act.Logs P (Act.lift o : Act (List κ) ε α) :=
  fun _ => ⟨[], rfl, nofun⟩

section
variable {x : Act (List κ) ε α} {f : α → Act (List κ) ε β}

theorem Act.Logs.bind (hx : Act.Logs P x) (hf : ∀ a, Act.Logs P (f a)) : Act.Logs P (x >>= f) := by
  intro h
  obtain ⟨new, hnew, hp⟩ := hx h
  rw [Act.bind_apply]
  rcases hr : x h with ⟨r, t⟩
  rw [hr] at hnew
  cases r with
  | ok a =>
    obtain ⟨more, hmore, hq⟩ := hf a t
    refine ⟨more ++ new, ?_, fun c hc => (List.mem_append.1 hc).elim (hq c) (hp c)⟩
    rw [List.append_assoc, ← hnew]
    exact hmore
  | err e => exact ⟨new, hnew, hp⟩
  | panic => exact ⟨new, hnew, hp⟩

/-- What a second part adds to the log of the first. -/
theorem Act.Logs.after (hf : ∀ a, Act.Logs P (f a)) (h : List κ) :
    ∃ new, ((x >>= f) h).2 = new ++ (x h).2 ∧ ∀ c ∈ new, P c := by
  rw [Act.bind_apply]
  rcases x h with ⟨r, t⟩
  cases r with
  | ok a => exact hf a t
  | err e => exact ⟨[], rfl, nofun⟩
  | panic => exact ⟨[], rfl, nofun⟩

theorem Act.Logs.lift_bind {o : Outcome ε α} (hf : ∀ a, o = .ok a → Act.Logs P (f a)) :
    Act.Logs P (Act.lift o >>= f) := by
  cases o with
  | ok a => exact hf a rfl
  | err e => exact .lift (.err e)
  | panic => exact .lift .panic

/-- A loop that ends with an error at the first element that is refused. -/
theorem Act.Logs.forM_takeWhile {f : α → Act (List κ) ε PUnit} {p : α → Bool} {l : List α} {e : ε}
    (hf : ∀ a ∈ l.takeWhile p, Act.Logs P (f a)) (he : ∀ a, p a = false → f a = Act.fail e) :
    Act.Logs P (l.forM f) := by
  induction l with
  | nil => exact .pure _
  | cons a l ih =>
    cases ha : p a with
    | true =>
      rw [List.takeWhile_cons_of_pos ha] at hf
      obtain ⟨ha, hl⟩ := List.forall_mem_cons.1 hf
      exact ha.bind fun _ => ih hl
    | false =>
      change Act.Logs P (f a >>= fun _ => l.forM f)
      rw [he a ha]
      exact .lift (.err e)

theorem Act.Logs.forM {f : α → Act (List κ) ε PUnit} {l : List α}
    (hf : ∀ a ∈ l, Act.Logs P (f a)) : Act.Logs P (l.forM f) := by
  induction l with
  | nil => exact .pure _
  | cons a l ih =>
    obtain ⟨ha, hl⟩ := List.forall_mem_cons.1 hf
    exact ha.bind fun _ => ih hl

theorem Act.Logs.foldlM {f : β → α → Act (List κ) ε β} {l : List α}
    (hf : ∀ b, ∀ a ∈ l, Act.Logs P (f b a)) (b : β) : Act.Logs P (l.foldlM f b) := by
  induction l generalizing b with
  | nil => exact .pure b
  | cons a l ih =>
    exact (hf b a List.mem_cons_self).bind
      (ih fun b' a' ha => hf b' a' (List.mem_cons_of_mem _ ha))

theorem Act.Logs.mono {Q : κ → Prop} (hx : Act.Logs P x) (hq : ∀ c, P c → Q c) :
    Act.Logs Q x := by
  intro h
  obtain ⟨new, hnew, hp⟩ := hx h
  exact ⟨new, hnew, fun c hc => hq c (hp c hc)⟩

theorem Act.Logs.mem (hx : Act.Logs P x) (hc : c ∈ h) : c ∈ (x h).2 := by
  obtain ⟨new, hnew, -⟩ := hx h
  rw [hnew]
  exact List.mem_append_right new hc

/-- No entry is taken off the log. -/
abbrev Act.Grows (x : Act (List κ) ε α) : Prop := Act.Logs (fun _ => True) x

/-- The computation ends in every state, with a value that has the property `V`. -/
def Act.Ensures (V : α → Prop) (x : Act σ ε α) : Prop := ∀ s, ∃ a t, x s = (.ok a, t) ∧ V a

theorem Act.Ensures.pure {a : α} (ha : V a) : Act.Ensures V (pure a : Act σ ε α) :=
  fun s => ⟨a, s, rfl, ha⟩

theorem Act.Ensures.bind {x : Act σ ε α} {f : α → Act σ ε β} (hx : Act.Ensures V x)
    (hf : ∀ a, V a → Act.Ensures W (f a)) : Act.Ensures W (x >>= f) := by
  intro s
  obtain ⟨a, t, hs, ha⟩ := hx s
  obtain ⟨b, u, ht, hb⟩ := hf a ha t
  exact ⟨b, u, by rw [Act.bind_ok hs, ht], hb⟩

theorem Act.Ensures.foldlM {f : β → α → Act σ ε β} {l : List α}
    (hf : ∀ b a, Act.Ensures (fun _ => True) (f b a)) (b : β) :
    Act.Ensures (fun _ => True) (l.foldlM f b) := by
  induction l generalizing b with
  | nil => exact .pure trivial
  | cons a l ih => exact (hf b a).bind fun b' _ => ih b'

/-- The computation adds the entry to the log. -/
def Act.Reaches (c : κ) (x : Act (List κ) ε α) : Prop := ∀ h, c ∈ (x h).2

theorem Act.Reaches.bind_left (hx : Act.Reaches c x) (hf : ∀ a, Act.Grows (f a)) :
    Act.Reaches c (x >>= f) := by
  intro h
  have hc := hx h
  rw [Act.bind_apply]
  rcases hr : x h with ⟨r, t⟩
  rw [hr] at hc
  cases r with
  | ok a => exact (hf a).mem hc
  | err e => exact hc
  | panic => exact hc

theorem Act.Reaches.bind_right (hx : Act.Ensures V x) (hf : ∀ a, V a → Act.Reaches c (f a)) :
    Act.Reaches c (x >>= f) := by
  intro h
  obtain ⟨a, t, hs, ha⟩ := hx h
  rw [Act.bind_ok hs]
  exact hf a ha t

/-- A loop reaches what it does for an element, when the elements before it are accepted too. -/
theorem Act.Reaches.forM_takeWhile {f : α → Act (List κ) ε PUnit} {p : α → Bool} {l : List α}
    {a : α} (ha : a ∈ l.takeWhile p) (hp : ∀ b, p b = true → Act.Ensures (fun _ => True) (f b))
    (hl : ∀ b, Act.Grows (f b)) (hc : Act.Reaches c (f a)) : Act.Reaches c (l.forM f) := by
  induction l with
  | nil => cases ha
  | cons b l ih =>
    change Act.Reaches c (f b >>= fun _ => l.forM f)
    cases hb : p b with
    | false =>
      rw [List.takeWhile_cons_of_neg (ne_true_of_eq_false hb)] at ha
      cases ha
    | true =>
      rw [List.takeWhile_cons_of_pos hb] at ha
      rcases List.mem_cons.1 ha with rfl | ha
      · exact hc.bind_left fun _ => .forM fun b _ => hl b
      · exact .bind_right (hp b hb) fun _ _ => ih ha

end

end Fallible
