import Mathlib.Logic.Basic
import Mathlib.Data.List.Forall2

namespace Fallible
set_option autoImplicit true

/-- How a call ends: with a value, with an error handed to its caller, or by unwinding. -/
inductive Outcome (ε α : Type) where
  | ok (a : α)
  | err (e : ε)
  | panic
  deriving DecidableEq, Repr

def Outcome.bind (x : Outcome ε α) (f : α → Outcome ε β) : Outcome ε β :=
  match x with
  | .ok a => f a
  | .err e => .err e
  | .panic => .panic

instance : Monad (Outcome ε) where
  pure := .ok
  bind := Outcome.bind

@[simp] theorem Outcome.pure_eq (a : α) : (pure a : Outcome ε α) = .ok a := rfl

@[simp] theorem Outcome.ok_bind (a : α) (f : α → Outcome ε β) : (.ok a >>= f) = f a := rfl

@[simp] theorem Outcome.err_bind (e : ε) (f : α → Outcome ε β) : (.err e >>= f) = .err e := rfl

@[simp] theorem Outcome.panic_bind (f : α → Outcome ε β) : (.panic >>= f) = .panic := rfl

theorem Outcome.bind_eq_ok {x : Outcome ε α} {f : α → Outcome ε β} :
    (x >>= f) = .ok b ↔ ∃ a, x = .ok a ∧ f a = .ok b := by
  cases x with
  | ok a => simp
  | err e => simp
  | panic => simp

theorem Outcome.bind_eq_panic {x : Outcome ε α} {f : α → Outcome ε β} :
    (x >>= f) = .panic ↔ x = .panic ∨ ∃ a, x = .ok a ∧ f a = .panic := by
  cases x with
  | ok a => simp
  | err e => simp
  | panic => simp

theorem Outcome.bind_ne_panic_iff {x : Outcome ε α} {f : α → Outcome ε β} :
    (x >>= f) ≠ .panic ↔ x ≠ .panic ∧ ∀ a, x = .ok a → f a ≠ .panic := by
  rw [Ne, Outcome.bind_eq_panic, not_or, not_exists]
  exact and_congr_right fun _ => forall_congr' fun _ => not_and

theorem Outcome.bind_ne_panic {x : Outcome ε α} {f : α → Outcome ε β} (hx : x ≠ .panic)
    (hf : ∀ a, f a ≠ .panic) : (x >>= f) ≠ .panic :=
  Outcome.bind_ne_panic_iff.2 ⟨hx, fun a _ => hf a⟩

theorem Outcome.bind_assoc (x : Outcome ε α) (f : α → Outcome ε β) (g : β → Outcome ε γ) :
    (x >>= f >>= g) = x >>= fun a => f a >>= g := by
  cases x with
  | ok a => rfl
  | err e => rfl
  | panic => rfl

theorem Outcome.bind_pure (x : Outcome ε α) : (x >>= pure) = x := by
  cases x with
  | ok a => rfl
  | err e => rfl
  | panic => rfl

instance : LawfulMonad (Outcome ε) :=
  LawfulMonad.mk' (Outcome ε) Outcome.bind_pure (fun _ _ => rfl) Outcome.bind_assoc

/-- A loop that pushes one value for each element gives all of them, or stops. -/
theorem Outcome.mapM_eq_ok {f : α → Outcome ε β} {l : List α} {r : List β} :
    l.mapM f = .ok r ↔ List.Forall₂ (fun a b => f a = .ok b) l r := by
  induction l generalizing r with
  | nil =>
    rw [List.mapM_nil, List.forall₂_nil_left_iff]
    exact ⟨fun h => (Outcome.ok.inj h).symm, fun h => h ▸ rfl⟩
  | cons a l ih =>
    rw [List.mapM_cons, Outcome.bind_eq_ok, List.forall₂_cons_left_iff]
    refine exists_congr fun b => ?_
    rw [Outcome.bind_eq_ok]
    constructor
    · rintro ⟨ha, bs, hl, ⟨⟩⟩
      exact ⟨bs, ha, ih.1 hl, rfl⟩
    · rintro ⟨bs, ha, hl, rfl⟩
      exact ⟨ha, bs, ih.2 hl, rfl⟩

theorem exists_forall₂_iff {l : List α} {R : α → β → Prop} :
    (∃ r, List.Forall₂ R l r) ↔ ∀ a ∈ l, ∃ b, R a b := by
  induction l with
  | nil => exact iff_of_true ⟨[], .nil⟩ nofun
  | cons a l ih =>
    rw [List.forall_mem_cons, ← ih]
    constructor
    · rintro ⟨r, h⟩
      obtain ⟨b, bs, hb, hbs, rfl⟩ := List.forall₂_cons_left_iff.1 h
      exact ⟨⟨b, hb⟩, bs, hbs⟩
    · rintro ⟨⟨b, hb⟩, bs, hbs⟩
      exact ⟨b :: bs, .cons hb hbs⟩

theorem forall₂_and_iff {l : List α} {r : List β} {R S : α → β → Prop} :
    List.Forall₂ (fun a b => R a b ∧ S a b) l r ↔ List.Forall₂ R l r ∧ List.Forall₂ S l r := by
  constructor
  · intro h
    exact ⟨h.imp fun _ _ => And.left, h.imp fun _ _ => And.right⟩
  · rintro ⟨hr, hs⟩
    induction hr with
    | nil => exact .nil
    | cons ha _ ih =>
      obtain ⟨hb, hs⟩ := List.forall₂_cons.1 hs
      exact .cons ⟨ha, hb⟩ (ih hs)

/-- The loop gives values that are related to the elements where each pass gives such a value. -/
theorem Outcome.mapM_forall₂_iff {f : α → Outcome ε β} {l : List α} {Q : α → β → Prop} :
    (∃ r, l.mapM f = .ok r ∧ List.Forall₂ Q l r) ↔ ∀ a ∈ l, ∃ b, f a = .ok b ∧ Q a b := by
  rw [← exists_forall₂_iff]
  refine exists_congr fun r => ?_
  rw [Outcome.mapM_eq_ok, forall₂_and_iff]

/-- In another order the loop gives the same values in another order. -/
theorem Outcome.mapM_perm {f : α → Outcome ε β} {l m : List α} {r : List β} (h : l.Perm m)
    (hl : l.mapM f = .ok r) : ∃ q, m.mapM f = .ok q ∧ r.Perm q := by
  simp only [Outcome.mapM_eq_ok] at hl ⊢
  induction h generalizing r with
  | nil => exact ⟨r, hl, .refl r⟩
  | cons a _ ih =>
    obtain ⟨b, bs, hb, hbs, rfl⟩ := List.forall₂_cons_left_iff.1 hl
    obtain ⟨q, hq, hp⟩ := ih hbs
    exact ⟨b :: q, .cons hb hq, hp.cons b⟩
  | swap a a' l =>
    obtain ⟨b, bs, hb, hbs, rfl⟩ := List.forall₂_cons_left_iff.1 hl
    obtain ⟨c, cs, hc, hcs, rfl⟩ := List.forall₂_cons_left_iff.1 hbs
    exact ⟨c :: b :: cs, .cons hc (.cons hb hcs), .swap c b cs⟩
  | trans _ _ ih ih' =>
    obtain ⟨q, hq, hp⟩ := ih hl
    obtain ⟨q', hq', hp'⟩ := ih' hq
    exact ⟨q', hq', hp.trans hp'⟩

/-- A loop ends without an error where each of its passes does. -/
theorem Outcome.forM_eq_ok {f : α → Outcome ε Unit} {l : List α} :
    l.forM f = .ok () ↔ ∀ a ∈ l, f a = .ok () := by
  induction l with
  | nil => exact iff_of_true rfl nofun
  | cons a l ih =>
    rw [List.forall_mem_cons, ← ih]
    constructor
    · intro h
      obtain ⟨u, ha, hl⟩ := Outcome.bind_eq_ok.1 h
      exact ⟨ha, hl⟩
    · intro ⟨ha, hl⟩
      exact Outcome.bind_eq_ok.2 ⟨(), ha, hl⟩

def Outcome.isOk : Outcome ε α → Bool
  | .ok _ => true
  | _ => false

theorem Outcome.isOk_iff {x : Outcome ε α} : x.isOk = true ↔ ∃ a, x = .ok a := by
  cases x with
  | ok a => simp [Outcome.isOk]
  | err e => simp [Outcome.isOk]
  | panic => simp [Outcome.isOk]

/-- The value of an `Option`, or an error in its place. -/
def Outcome.ofOption (e : ε) : Option α → Outcome ε α
  | some a => .ok a
  | none => .err e

theorem Outcome.ofOption_eq_ok {e : ε} {o : Option α} :
    Outcome.ofOption e o = .ok a ↔ o = some a := by
  cases o with
  | none => simp [Outcome.ofOption]
  | some b => simp [Outcome.ofOption]

/-- `unwrap` of an `Option`. -/
def Outcome.ofUnwrap : Option α → Outcome ε α
  | some a => .ok a
  | none => .panic

@[simp] theorem Outcome.ofUnwrap_some (a : α) : (Outcome.ofUnwrap (some a) : Outcome ε α) = .ok a :=
  rfl

@[simp] theorem Outcome.ofUnwrap_none : (Outcome.ofUnwrap none : Outcome ε α) = .panic := rfl

theorem Outcome.ofUnwrap_ne_panic {o : Option α} :
    (Outcome.ofUnwrap o : Outcome ε α) ≠ .panic ↔ o.isSome := by
  cases o with
  | none => simp [Outcome.ofUnwrap]
  | some a => simp [Outcome.ofUnwrap]

/-- `unwrap` of a result. -/
def Outcome.unwrap : Outcome ε α → Outcome ε α
  | .ok a => .ok a
  | _ => .panic

@[simp] theorem Outcome.unwrap_ok (a : α) : (Outcome.ok a : Outcome ε α).unwrap = .ok a := rfl

theorem Outcome.unwrap_eq_ok {x : Outcome ε α} : x.unwrap = .ok a ↔ x = .ok a := by
  cases x with
  | ok b => exact .rfl
  | err e => exact iff_of_false nofun nofun
  | panic => exact .rfl

/-- `unwrap_or`. -/
def Outcome.unwrapOr (b : α) : Outcome ε α → Outcome ε α
  | .ok a => .ok a
  | .err _ => .ok b
  | .panic => .panic

/-- The end of a call that the environment lets succeed or makes fail. -/
def Outcome.ofFault (f : Option ε) : Outcome ε Unit :=
  match f with
  | none => .ok ()
  | some e => .err e

@[simp] theorem Outcome.ofFault_eq_ok {f : Option ε} : Outcome.ofFault f = .ok u ↔ f = none := by
  cases f with
  | none => simp [Outcome.ofFault]
  | some e => simp [Outcome.ofFault]

@[simp] theorem Outcome.ofFault_ne_panic {f : Option ε} : Outcome.ofFault f ≠ .panic := by
  cases f with
  | none => simp [Outcome.ofFault]
  | some e => simp [Outcome.ofFault]

/-- The end of a call, if it comes to one. -/
abbrev Stalling (ε α : Type) := Option (Outcome ε α)

def Stalling.bind (x : Stalling ε α) (f : α → Stalling ε β) : Stalling ε β :=
  match x with
  | none => none
  | some (.ok a) => f a
  | some (.err e) => some (.err e)
  | some .panic => some .panic

theorem Stalling.bind_eq_ok {x : Stalling ε α} {f : α → Stalling ε β} :
    x.bind f = some (.ok b) ↔ ∃ a, x = some (.ok a) ∧ f a = some (.ok b) := by
  cases x with
  | none => simp [Stalling.bind]
  | some o =>
    cases o with
    | ok a => simp [Stalling.bind]
    | err e => simp [Stalling.bind]
    | panic => simp [Stalling.bind]

/-- What stops a computation: an error for its caller, or a call that never returns. -/
inductive Halt (ε : Type) where
  | error (e : ε)
  | never
  deriving DecidableEq, Repr

/-- The computation comes back to its caller. -/
def Outcome.Returns (x : Outcome (Halt ε) α) : Prop := x ≠ .panic ∧ x ≠ .err .never

@[simp] theorem Outcome.returns_ok (a : α) : (Outcome.ok a : Outcome (Halt ε) α).Returns :=
  ⟨nofun, nofun⟩

@[simp] theorem Outcome.returns_error (e : ε) :
    (Outcome.err (.error e) : Outcome (Halt ε) α).Returns := ⟨nofun, nofun⟩

@[simp] theorem Outcome.not_returns_never :
    ¬ (Outcome.err .never : Outcome (Halt ε) α).Returns := fun h => h.2 rfl

@[simp] theorem Outcome.not_returns_panic :
    ¬ (Outcome.panic : Outcome (Halt ε) α).Returns := fun h => h.1 rfl

/-- A computation on a state; what it did to the state stays when it fails. -/
def Act (σ ε α : Type) := σ → Outcome ε α × σ

def Act.bind (x : Act σ ε α) (f : α → Act σ ε β) : Act σ ε β := fun s =>
  match x s with
  | (.ok a, t) => f a t
  | (.err e, t) => (.err e, t)
  | (.panic, t) => (.panic, t)

instance : Monad (Act σ ε) where
  pure a := fun s => (.ok a, s)
  bind := Act.bind

/-- A step that only reads the state. -/
def Act.read (f : σ → α) : Act σ ε α := fun s => (.ok (f s), s)

def Act.modify (f : σ → σ) : Act σ ε Unit := fun s => (.ok (), f s)

def Act.lift (x : Outcome ε α) : Act σ ε α := fun s => (x, s)

def Act.fail (e : ε) : Act σ ε α := .lift (.err e)

/-- A failing `unwrap`. -/
def Act.unwind : Act σ ε α := .lift .panic

/-- `unwrap` of the result: an error unwinds too. -/
def Act.unwrap (x : Act σ ε α) : Act σ ε α := fun s =>
  match x s with
  | (.ok a, t) => (.ok a, t)
  | (.err _, t) => (.panic, t)
  | (.panic, t) => (.panic, t)

/-- A computation whose error is dropped. -/
def Act.discard (x : Act σ ε α) : Act σ ε Unit := fun s =>
  match x s with
  | (.ok _, t) => (.ok (), t)
  | (.err _, t) => (.ok (), t)
  | (.panic, t) => (.panic, t)

/-- A request that the other side may refuse, by its number. -/
def Act.ask (refuses : Nat → Option ε) (number : σ → Nat) (next : σ → σ) (read : σ → Outcome ε α) :
    Act σ ε α := fun s =>
  match refuses (number s) with
  | some e => (.err e, next s)
  | none => (read s, next s)

/-- A computation under a mutex, which it poisons when it unwinds. -/
def Act.guarded (poisoned : σ → Bool) (poison : σ → σ) (x : Act σ ε α) : Act σ ε α := fun s =>
  if poisoned s then (.panic, s)
  else
    match x s with
    | (.panic, t) => (.panic, poison t)
    | (.ok a, t) => (.ok a, t)
    | (.err e, t) => (.err e, t)

/-- The computation among others that may never return. -/
def Act.returning (x : Act σ ε α) : Act σ (Halt ε) α := fun s =>
  match x s with
  | (.ok a, t) => (.ok a, t)
  | (.err e, t) => (.err (.error e), t)
  | (.panic, t) => (.panic, t)

/-- A call that may have no end. -/
def Act.await (x : Stalling ε α) : Act σ (Halt ε) α :=
  match x with
  | none => Act.fail .never
  | some (.ok a) => pure a
  | some (.err e) => Act.fail (.error e)
  | some .panic => Act.unwind

/-- What a state has of a mutex: that it is poisoned, and that its holder never lets it go. -/
structure Mutex (σ : Type) where
  poisoned : σ → Bool
  held : σ → Bool
  poison : σ → σ
  hold : σ → σ
  poisoned_poison : ∀ s, poisoned (poison s) = true
  held_hold : ∀ s, held (hold s) = true

def Mutex.Free (m : Mutex σ) (s : σ) : Prop := m.poisoned s = false ∧ m.held s = false

/-- A computation under a mutex, which it keeps when it never returns. -/
def Act.exclusive (m : Mutex σ) (x : Act σ (Halt ε) α) : Act σ (Halt ε) α := fun s =>
  if m.held s then (.err .never, s)
  else
    match Act.guarded m.poisoned m.poison x s with
    | (.ok a, t) => (.ok a, t)
    | (.err (.error e), t) => (.err (.error e), t)
    | (.err .never, t) => (.err .never, m.hold t)
    | (.panic, t) => (.panic, t)

section
variable {σ ε α β : Type} {x : Act σ ε α} {f : α → Act σ ε β} {s t : σ} {a : α} {b : β} {e : ε}

@[simp] theorem Act.pure_apply (a : α) : (pure a : Act σ ε α) s = (.ok a, s) := rfl

@[simp] theorem Act.read_apply (g : σ → α) : (Act.read g : Act σ ε α) s = (.ok (g s), s) := rfl

@[simp] theorem Act.modify_apply (g : σ → σ) :
    (Act.modify g : Act σ ε Unit) s = (.ok (), g s) := rfl

@[simp] theorem Act.lift_apply (o : Outcome ε α) : (Act.lift o : Act σ ε α) s = (o, s) := rfl

theorem Act.bind_apply : (x >>= f) s =
    match x s with
    | (.ok a, t) => f a t
    | (.err e, t) => (.err e, t)
    | (.panic, t) => (.panic, t) := rfl

theorem Act.bind_assoc (x : Act σ ε α) (f : α → Act σ ε β) (g : β → Act σ ε γ) :
    (x >>= f >>= g) = x >>= fun a => f a >>= g := by
  funext s
  rw [Act.bind_apply, Act.bind_apply, Act.bind_apply]
  rcases x s with ⟨r, t⟩
  cases r with
  | ok a => rfl
  | err e => rfl
  | panic => rfl

theorem Act.bind_pure (x : Act σ ε α) : (x >>= pure) = x := by
  funext s
  rw [Act.bind_apply]
  rcases x s with ⟨r, t⟩
  cases r with
  | ok a => rfl
  | err e => rfl
  | panic => rfl

theorem Act.forM_append {f : α → Act σ ε PUnit} {as bs : List α} :
    (as ++ bs).forM f = as.forM f >>= fun _ => bs.forM f := by
  induction as with
  | nil => rfl
  | cons a as ih =>
    change (f a >>= fun _ => (as ++ bs).forM f) = (f a >>= fun _ => as.forM f) >>= _
    rw [ih, Act.bind_assoc]

theorem Act.forM_cons_bind {g : α → Act σ ε PUnit} {l : List α} {k : PUnit → Act σ ε β} :
    ((a :: l).forM g >>= k) = g a >>= fun _ => l.forM g >>= k :=
  Act.bind_assoc (g a) (fun _ => l.forM g) k

theorem Act.bind_ok (h : x s = (.ok a, t)) : (x >>= f) s = f a t := by
  rw [Act.bind_apply, h]

theorem Act.bind_err (h : x s = (.err e, t)) : (x >>= f) s = (.err e, t) := by
  rw [Act.bind_apply, h]

theorem Act.bind_panic (h : x s = (.panic, t)) : (x >>= f) s = (.panic, t) := by
  rw [Act.bind_apply, h]

theorem Act.bind_pure_apply (g : α → β) :
    (x >>= fun a => pure (g a)) s = ((x s).1 >>= fun a => .ok (g a), (x s).2) := by
  rw [Act.bind_apply]
  rcases x s with ⟨r, t⟩
  cases r with
  | ok a => rfl
  | err e => rfl
  | panic => rfl

theorem Act.bind_eq_ok : (x >>= f) s = (.ok b, t) ↔
    ∃ a u, x s = (.ok a, u) ∧ f a u = (.ok b, t) := by
  constructor
  · intro h
    rw [Act.bind_apply] at h
    rcases hx : x s with ⟨r, u⟩
    rw [hx] at h
    cases r with
    | ok a => exact ⟨a, u, rfl, h⟩
    | err e => cases h
    | panic => cases h
  · rintro ⟨a, u, hx, hf⟩
    rw [Act.bind_ok hx, hf]

/-- The first part ends in one state, if it does with a value. -/
theorem Act.bind_unit_eq_ok {x : Act σ ε Unit} {f : Unit → Act σ ε β} {P : Prop} {u : σ}
    (hx : ∀ v, x s = (.ok (), v) ↔ P ∧ v = u) :
    (x >>= f) s = (.ok b, t) ↔ P ∧ f () u = (.ok b, t) := by
  rw [Act.bind_eq_ok]
  constructor
  · rintro ⟨a, v, hv, hf⟩
    obtain ⟨hp, rfl⟩ := (hx v).1 hv
    exact ⟨hp, hf⟩
  · rintro ⟨hp, hf⟩
    exact ⟨(), u, (hx u).2 ⟨hp, rfl⟩, hf⟩

theorem Act.bind_eq_err : (x >>= f) s = (.err e, t) ↔
    x s = (.err e, t) ∨ ∃ a u, x s = (.ok a, u) ∧ f a u = (.err e, t) := by
  constructor
  · intro h
    rw [Act.bind_apply] at h
    rcases hx : x s with ⟨r, u⟩
    rw [hx] at h
    cases r with
    | ok a => exact .inr ⟨a, u, rfl, h⟩
    | err e' =>
      cases h
      exact .inl rfl
    | panic => cases h
  · rintro (hx | ⟨a, u, hx, hf⟩)
    · exact Act.bind_err hx
    · rw [Act.bind_ok hx, hf]

/-- The first part ends without a value, or the second part runs. -/
theorem Act.bind_cases {o : Outcome ε β} (h : (x >>= f) s = (o, t)) :
    ((∀ b, o ≠ .ok b) ∧ (x s).2 = t) ∨ ∃ a u, x s = (.ok a, u) ∧ f a u = (o, t) := by
  rw [Act.bind_apply] at h
  rcases hx : x s with ⟨r, u⟩
  rw [hx] at h
  cases r with
  | ok a => exact .inr ⟨a, u, rfl, h⟩
  | err e =>
    cases h
    exact .inl ⟨nofun, rfl⟩
  | panic =>
    cases h
    exact .inl ⟨nofun, rfl⟩

/-- An answer is no value, or the second part runs in the same state. -/
theorem Act.lift_bind_cases {x : Outcome ε α} {o : Outcome ε β}
    (h : (Act.lift x >>= f) s = (o, t)) :
    ((∀ b, o ≠ .ok b) ∧ t = s) ∨ ∃ a, f a s = (o, t) := by
  rcases Act.bind_cases h with ⟨ho, hs⟩ | ⟨a, u, hu, hf⟩
  · exact .inl ⟨ho, hs.symm⟩
  · cases hu
    exact .inr ⟨a, hf⟩

theorem Act.bind_not_ok (h : ∀ a, (x s).1 ≠ .ok a) :
    (∀ b, ((x >>= f) s).1 ≠ .ok b) ∧ ((x >>= f) s).2 = (x s).2 := by
  rw [Act.bind_apply]
  rcases hx : x s with ⟨r, u⟩
  rw [hx] at h
  cases r with
  | ok a => exact absurd rfl (h a)
  | err e => exact ⟨nofun, rfl⟩
  | panic => exact ⟨nofun, rfl⟩

theorem Act.ask_eq_ok {refuses : Nat → Option ε} {number : σ → Nat} {next : σ → σ}
    {read : σ → Outcome ε α} : Act.ask refuses number next read s = (.ok a, t) ↔
      refuses (number s) = none ∧ read s = .ok a ∧ t = next s := by
  rw [Act.ask]
  cases refuses (number s) with
  | some e => simp
  | none => simp [Prod.ext_iff, eq_comm (a := t)]

theorem Act.ask_snd {refuses : Nat → Option ε} {number : σ → Nat} {next : σ → σ}
    {read : σ → Outcome ε α} : (Act.ask refuses number next read s).2 = next s := by
  rw [Act.ask]
  cases refuses (number s) with
  | some e => rfl
  | none => rfl

/-- A computation that ends without unwinding in every state. -/
def Act.Safe (x : Act σ ε α) : Prop := ∀ s, (x s).1 ≠ .panic

theorem Act.Safe.pure (a : α) : Act.Safe (pure a : Act σ ε α) := fun _ => nofun

theorem Act.Safe.read (g : σ → α) : Act.Safe (Act.read g : Act σ ε α) := fun _ => nofun

theorem Act.Safe.modify (g : σ → σ) : Act.Safe (Act.modify g : Act σ ε Unit) := fun _ => nofun

theorem Act.Safe.lift {o : Outcome ε α} (h : o ≠ .panic) : Act.Safe (Act.lift o : Act σ ε α) :=
  fun _ => h

theorem Act.bind_safe_ne_panic (hf : ∀ a, Act.Safe (f a)) :
    ((x >>= f) s).1 ≠ .panic ↔ (x s).1 ≠ .panic := by
  rw [Act.bind_apply]
  rcases x s with ⟨r, t⟩
  cases r with
  | ok a => exact ⟨fun _ => nofun, fun _ => hf a t⟩
  | err e => exact ⟨fun _ => nofun, fun _ => nofun⟩
  | panic => exact ⟨fun h => absurd rfl h, fun h => absurd rfl h⟩

theorem Act.Safe.bind (hx : Act.Safe x) (hf : ∀ a, Act.Safe (f a)) : Act.Safe (x >>= f) :=
  fun s => (Act.bind_safe_ne_panic hf).2 (hx s)

theorem Act.bind_modify_snd {g : σ → τ} {h : σ → σ} (hg : ∀ s, g (h s) = g s) :
    g ((x >>= fun _ => Act.modify h) s).2 = g (x s).2 := by
  rw [Act.bind_apply]
  rcases x s with ⟨r, t⟩
  cases r with
  | ok a => exact hg t
  | err e => rfl
  | panic => rfl

/-- However a computation ends, it leaves a state with the property `I` in such a state. -/
def Act.Preserves (I : σ → Prop) (x : Act σ ε α) : Prop := ∀ s, I s → I (x s).2

variable {I : σ → Prop}

theorem Act.Preserves.pure (a : α) : Act.Preserves I (pure a : Act σ ε α) := fun _ h => h

theorem Act.Preserves.read (g : σ → α) : Act.Preserves I (Act.read g : Act σ ε α) := fun _ h => h

theorem Act.Preserves.lift (o : Outcome ε α) : Act.Preserves I (Act.lift o : Act σ ε α) :=
  fun _ h => h

theorem Act.Preserves.modify {g : σ → σ} (hg : ∀ s, I s → I (g s)) :
    Act.Preserves I (Act.modify g : Act σ ε Unit) := hg

/-- The second part may rely on the value that the first part ended with. -/
theorem Act.Preserves.bind_ok (hx : Act.Preserves I x)
    (hf : ∀ s a t, I s → x s = (.ok a, t) → I t → I (f a t).2) : Act.Preserves I (x >>= f) := by
  intro s hs
  have h := hx s hs
  rw [Act.bind_apply]
  rcases hr : x s with ⟨r, t⟩
  rw [hr] at h
  cases r with
  | ok a => exact hf s a t hs hr h
  | err e => exact h
  | panic => exact h

theorem Act.Preserves.bind (hx : Act.Preserves I x) (hf : ∀ a, Act.Preserves I (f a)) :
    Act.Preserves I (x >>= f) :=
  hx.bind_ok fun _ a t _ _ ht => hf a t ht

theorem Act.Preserves.forM {f : α → Act σ ε PUnit} {l : List α}
    (hf : ∀ a ∈ l, Act.Preserves I (f a)) : Act.Preserves I (l.forM f) := by
  induction l with
  | nil => exact .pure PUnit.unit
  | cons a l ih =>
    obtain ⟨ha, hl⟩ := List.forall_mem_cons.1 hf
    exact ha.bind fun _ => ih hl

/-- Every error that the computation can end with has the property `P`. -/
def Act.Errs (P : ε → Prop) (x : Act σ ε α) : Prop := ∀ s e, (x s).1 = .err e → P e

section
variable {P : ε → Prop}

theorem Act.Errs.pure (a : α) : Act.Errs P (pure a : Act σ ε α) := fun _ _ h => by cases h

theorem Act.Errs.bind (hx : Act.Errs P x) (hf : ∀ a, Act.Errs P (f a)) : Act.Errs P (x >>= f) := by
  intro s e h
  rcases Act.bind_eq_err.1 (Prod.ext h rfl : (x >>= f) s = (.err e, ((x >>= f) s).2)) with
    h | ⟨a, u, -, h⟩
  · exact hx s e (congrArg Prod.fst h)
  · exact hf a u e (congrArg Prod.fst h)

theorem Act.Errs.forM {f : α → Act σ ε PUnit} {l : List α} (hf : ∀ a ∈ l, Act.Errs P (f a)) :
    Act.Errs P (l.forM f) := by
  induction l with
  | nil => exact .pure PUnit.unit
  | cons a l ih =>
    obtain ⟨ha, hl⟩ := List.forall_mem_cons.1 hf
    exact ha.bind fun _ => ih hl

end

/-- From related states the computation ends alike, in related states. -/
def Act.Agrees (R : σ → σ → Prop) (x : Act σ ε α) : Prop :=
  ∀ s t, R s t → (x s).1 = (x t).1 ∧ R (x s).2 (x t).2

theorem Act.Agrees.pure {R : σ → σ → Prop} (a : α) : Act.Agrees R (pure a : Act σ ε α) :=
  fun _ _ h => ⟨rfl, h⟩

theorem Act.Agrees.bind {R : σ → σ → Prop} (hx : Act.Agrees R x)
    (hf : ∀ a, Act.Agrees R (f a)) : Act.Agrees R (x >>= f) := by
  intro s t h
  obtain ⟨ho, hr⟩ := hx s t h
  rw [Act.bind_apply, Act.bind_apply]
  rcases hs : x s with ⟨o, s'⟩
  rcases ht : x t with ⟨o', t'⟩
  rw [hs, ht] at ho hr
  cases ho
  cases o with
  | ok a => exact hf a s' t' hr
  | err e => exact ⟨rfl, hr⟩
  | panic => exact ⟨rfl, hr⟩

/-- On the part `π` of its state `x` does what `y` does, and it ends in the same way. -/
def Act.Shows (π : σ → τ) (x : Act σ ε α) (y : Act τ ε α) : Prop :=
  ∀ s, ((x s).1, π (x s).2) = y (π s)

theorem Act.Shows.lift {π : σ → τ} (o : Outcome ε α) : Act.Shows π (Act.lift o) (Act.lift o) :=
  fun _ => rfl

theorem Act.Shows.read {π : σ → τ} (g : τ → α) :
    Act.Shows π (Act.read (ε := ε) fun s => g (π s)) (Act.read g) := fun _ => rfl

theorem Act.Shows.bind {π : σ → τ} {y : Act τ ε α} {k : α → Act τ ε β} (hx : Act.Shows π x y)
    (hf : ∀ a, Act.Shows π (f a) (k a)) : Act.Shows π (x >>= f) (y >>= k) := by
  intro s
  have hs := hx s
  rw [Act.bind_apply, Act.bind_apply, ← hs]
  rcases x s with ⟨r, u⟩
  cases r with
  | ok a => exact hf a u
  | err e => rfl
  | panic => rfl

section
variable {y : Act σ (Halt ε) α} {k : α → Act σ (Halt ε) β} {m : Mutex σ}

theorem Act.returning_snd : (x.returning s).2 = (x s).2 := by
  rw [Act.returning]
  rcases x s with ⟨o, t⟩
  cases o with
  | ok a => rfl
  | err e => rfl
  | panic => rfl

theorem Act.returning_returns : (x.returning s).1.Returns ↔ (x s).1 ≠ .panic := by
  rw [Act.returning]
  rcases x s with ⟨o, t⟩
  cases o with
  | ok a => simp
  | err e => simp
  | panic => simp

theorem Act.await_returns {x : Stalling ε α} :
    ((Act.await x : Act σ (Halt ε) α) s).1.Returns ↔ x ≠ none ∧ x ≠ some .panic := by
  cases x with
  | none => exact iff_of_false (fun h => h.2 rfl) fun h => h.1 rfl
  | some o =>
    cases o with
    | ok a => exact iff_of_true (Outcome.returns_ok a) ⟨nofun, nofun⟩
    | err e => exact iff_of_true (Outcome.returns_error e) ⟨nofun, nofun⟩
    | panic => exact iff_of_false (fun h => h.1 rfl) fun h => h.2 rfl

/-- What follows a computation does not keep it from coming back if it always comes back itself. -/
theorem Act.bind_returns_iff (hk : ∀ a t, (k a t).1.Returns) :
    ((y >>= k) s).1.Returns ↔ (y s).1.Returns := by
  rw [Act.bind_apply]
  rcases y s with ⟨o, t⟩
  cases o with
  | ok a => exact iff_of_true (hk a t) (Outcome.returns_ok a)
  | err e =>
    cases e with
    | error e => exact iff_of_true (Outcome.returns_error e) (Outcome.returns_error e)
    | never => exact iff_of_false Outcome.not_returns_never Outcome.not_returns_never
  | panic => exact iff_of_false Outcome.not_returns_panic Outcome.not_returns_panic

theorem Act.Preserves.returning (hx : Act.Preserves I x) : Act.Preserves I x.returning := by
  intro s hs
  rw [Act.returning_snd]
  exact hx s hs

theorem Act.Preserves.await (x : Stalling ε α) :
    Act.Preserves I (Act.await x : Act σ (Halt ε) α) := by
  cases x with
  | none => exact .lift _
  | some o =>
    cases o with
    | ok a => exact .pure a
    | err e => exact .lift _
    | panic => exact .lift _

end

section
variable {poisoned : σ → Bool} {poison : σ → σ}

/-- A mutex that is free afterwards was free before, and what ran under it did not unwind. -/
theorem Act.free_of_guarded (poisoned : σ → Bool) (hp : ∀ s, poisoned (poison s) = true)
    (h : poisoned (Act.guarded poisoned poison x s).2 = false) :
    poisoned s = false ∧ (Act.guarded poisoned poison x s).1 ≠ .panic := by
  unfold Act.guarded at h ⊢
  cases hs : poisoned s with
  | true =>
    rw [hs] at h
    cases hs.symm.trans h
  | false =>
    rw [hs, if_neg Bool.false_ne_true] at h
    rw [if_neg Bool.false_ne_true]
    rcases hr : x s with ⟨o, t⟩
    rw [hr] at h
    cases o with
    | ok a => exact ⟨rfl, nofun⟩
    | err e => exact ⟨rfl, nofun⟩
    | panic => cases (hp t).symm.trans h

theorem Act.guarded_free_iff
    (hx : Act.Preserves (fun s => poisoned s = false) x) (hs : poisoned s = false) :
    ((Act.guarded poisoned poison x s).1 ≠ .panic ∧
      poisoned (Act.guarded poisoned poison x s).2 = false) ↔ (x s).1 ≠ .panic := by
  have h := hx s hs
  rw [Act.guarded]
  rw [hs, if_neg Bool.false_ne_true]
  rcases hr : x s with ⟨o, t⟩
  rw [hr] at h
  cases o with
  | ok a => exact ⟨And.left, fun _ => ⟨nofun, h⟩⟩
  | err e => exact ⟨And.left, fun _ => ⟨nofun, h⟩⟩
  | panic => exact ⟨fun hk => absurd rfl hk.1, fun hk => absurd rfl hk⟩

end

section
variable {y : Act σ (Halt ε) α} {m : Mutex σ}

/-- A mutex that is free afterwards was free before, and what ran under it came back. -/
theorem Act.free_of_exclusive (h : m.Free (Act.exclusive m y s).2) :
    m.Free s ∧ (Act.exclusive m y s).1.Returns := by
  unfold Act.exclusive at h ⊢
  cases hs : m.held s with
  | true =>
    rw [hs, if_pos rfl] at h
    cases hs.symm.trans h.2
  | false =>
    have hfree := Act.free_of_guarded (x := y) (s := s) m.poisoned m.poisoned_poison
    rw [hs, if_neg Bool.false_ne_true] at h
    rw [if_neg Bool.false_ne_true]
    rcases hr : Act.guarded m.poisoned m.poison y s with ⟨o, t⟩
    rw [hr] at h hfree
    cases o with
    | ok a => exact ⟨⟨(hfree h.1).1, hs⟩, Outcome.returns_ok a⟩
    | err e =>
      cases e with
      | error e => exact ⟨⟨(hfree h.1).1, hs⟩, Outcome.returns_error e⟩
      | never => cases (m.held_hold t).symm.trans h.2
    | panic => exact absurd rfl (hfree h.1).2

/-- Under a free mutex a computation comes back and lets it go exactly if it comes back at all. -/
theorem Act.exclusive_free_iff (hy : Act.Preserves m.Free y) (hs : m.Free s) :
    ((Act.exclusive m y s).1.Returns ∧ m.Free (Act.exclusive m y s).2) ↔ (y s).1.Returns := by
  have h := hy s hs
  unfold Act.exclusive Act.guarded
  rw [hs.1, hs.2, if_neg Bool.false_ne_true, if_neg Bool.false_ne_true]
  rcases hr : y s with ⟨o, t⟩
  rw [hr] at h
  cases o with
  | ok a => exact iff_of_true ⟨Outcome.returns_ok a, h⟩ (Outcome.returns_ok a)
  | err e =>
    cases e with
    | error e => exact iff_of_true ⟨Outcome.returns_error e, h⟩ (Outcome.returns_error e)
    | never => exact iff_of_false (fun h => h.1.2 rfl) Outcome.not_returns_never
  | panic => exact iff_of_false (fun h => h.1.1 rfl) Outcome.not_returns_panic

end

end

end Fallible
