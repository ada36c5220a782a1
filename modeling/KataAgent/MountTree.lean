import Mathlib.Data.List.Infix

namespace MountTrees
set_option autoImplicit true

/-- What a node of a tree is: a directory with what is mounted on it, the latest first, or a link.
-/
inductive Node (β γ : Type) where
  | dir (mounts : List β)
  | link (target : γ)
  deriving DecidableEq

/-- A tree of directories and links. A place is the list of the names on the way up to the root. -/
abbrev Tree (α β γ : Type) := List α → Option (Node β γ)

/-- A place is not below what is in there. -/
theorem not_cons_suffix {name : α} {place : List α} : ¬ name :: place <:+ place := by
  intro h
  have hlen := h.length_le
  rw [List.length_cons] at hlen
  exact absurd hlen (Nat.lt_irrefl _)

section
variable {α β γ : Type} [DecidableEq α]

def Tree.IsDir (t : Tree α β γ) (place : List α) : Prop := ∃ mounts, t place = some (.dir mounts)

theorem Node.link_not_dir {target : γ} :
    ¬ ∃ mounts, (some (.link target) : Option (Node β γ)) = some (.dir mounts) := by
  intro h
  obtain ⟨mounts, h⟩ := h
  cases h

theorem Node.none_not_dir : ¬ ∃ mounts, (none : Option (Node β γ)) = some (.dir mounts) := by
  intro h
  obtain ⟨mounts, h⟩ := h
  cases h

def Node.decideDir : (o : Option (Node β γ)) → Decidable (∃ mounts, o = some (.dir mounts))
  | some (.dir mounts) => .isTrue ⟨mounts, rfl⟩
  | some (.link _) => .isFalse Node.link_not_dir
  | none => .isFalse Node.none_not_dir

instance {t : Tree α β γ} {place : List α} : Decidable (t.IsDir place) := Node.decideDir (t place)

/-- Make an entry where nothing is. -/
def Tree.make (t : Tree α β γ) (place : List α) (e : Node β γ) : Tree α β γ := fun x =>
  if x = place then (t x).or (some e) else t x

/-- Make the directories that are missing on the way to a place, and at it. -/
def Tree.makeAll (t : Tree α β γ) (place : List α) : Tree α β γ := fun x =>
  if x <:+ place then (t x).or (some (.dir [])) else t x

/-- Mount something on a directory. It hides what is in there. -/
def Tree.mount (t : Tree α β γ) (place : List α) (b : β) : Tree α β γ := fun x =>
  match t place with
  | some (.dir mounts) =>
    if x = place then some (.dir (b :: mounts)) else if place <:+ x then none else t x
  | _ => t x

variable {t : Tree α β γ} {place x : List α} {e : Node β γ} {b : β} {mounts : List β}

theorem Tree.make_self (h : t place = none) : t.make place e place = some e := by
  rw [Tree.make, if_pos rfl, h]
  rfl

theorem Tree.make_of_ne (h : x ≠ place) : t.make place e x = t x := by
  rw [Tree.make, if_neg h]

theorem Tree.make_of_some (h : t place ≠ none) : t.make place e = t := by
  funext x
  by_cases hx : x = place
  · cases ht : t place with
    | none => exact absurd ht h
    | some e' =>
      rw [Tree.make, if_pos hx, hx, ht]
      rfl
  · exact Tree.make_of_ne hx

theorem Tree.makeAll_of_dirs (h : ∀ x, x <:+ place → t.IsDir x) : t.makeAll place = t := by
  funext x
  rw [Tree.makeAll]
  split
  · rename_i hx
    obtain ⟨mounts, hd⟩ := h x hx
    rw [hd]
    rfl
  · rfl

theorem Tree.makeAll_make (h : x <:+ place) :
    (t.make x (.dir [])).makeAll place = t.makeAll place := by
  funext y
  by_cases hy : y = x
  · rw [Tree.makeAll, Tree.makeAll, hy, if_pos h, if_pos h, Tree.make, if_pos rfl,
      Option.or_assoc]
    rfl
  · rw [Tree.makeAll, Tree.makeAll, Tree.make_of_ne hy]

theorem Tree.makeAll_of_not_suffix (h : ¬ x <:+ place) : t.makeAll place x = t x := by
  rw [Tree.makeAll, if_neg h]

theorem Tree.makeAll_of_some (hx : t x ≠ none) : t.makeAll place x = t x := by
  rw [Tree.makeAll]
  cases ht : t x with
  | none => exact absurd ht hx
  | some e => exact ite_self _

theorem Tree.makeAll_of_none (h : x <:+ place) (hx : t x = none) :
    t.makeAll place x = some (.dir []) := by
  rw [Tree.makeAll, if_pos h, hx]
  rfl

/-- Where no link is on the way, every place on it is a directory then. -/
theorem Tree.makeAll_isDir (h : ∀ target, t x ≠ some (.link target)) (hx : x <:+ place) :
    (t.makeAll place).IsDir x := by
  rw [Tree.IsDir, Tree.makeAll, if_pos hx]
  cases ht : t x with
  | none => exact ⟨[], rfl⟩
  | some e =>
    cases e with
    | dir mounts => exact ⟨mounts, rfl⟩
    | link target => exact absurd ht (h target)

theorem Tree.mount_self (h : t place = some (.dir mounts)) :
    t.mount place b place = some (.dir (b :: mounts)) := by
  rw [Tree.mount, h]
  exact if_pos rfl

theorem Tree.mount_below (h : t.IsDir place) (hx : place <:+ x) (hne : x ≠ place) :
    t.mount place b x = none := by
  obtain ⟨mounts, h⟩ := h
  rw [Tree.mount, h]
  dsimp only
  rw [if_neg hne, if_pos hx]

theorem Tree.mount_beside (hx : ¬ place <:+ x) : t.mount place b x = t x := by
  rw [Tree.mount]
  split
  · rw [if_neg, if_neg hx]
    intro he
    exact hx (he ▸ List.suffix_rfl)
  · rfl

/-- A mount on a directory that is made for it changes nothing else, where what is above is there
and nothing is below. -/
theorem Tree.mount_makeAll_of_ne (hfree : t place = none)
    (habove : ∀ x, x <:+ place → x ≠ place → t x ≠ none)
    (hbelow : ∀ x, place <:+ x → x ≠ place → t x = none) (hx : x ≠ place) :
    (t.makeAll place).mount place b x = t x := by
  have hmake : t.makeAll place place = some (.dir []) :=
    Tree.makeAll_of_none List.suffix_rfl hfree
  by_cases hb : place <:+ x
  · rw [Tree.mount_below ⟨[], hmake⟩ hb hx, hbelow x hb hx]
  · rw [Tree.mount_beside hb]
    by_cases hs : x <:+ place
    · exact Tree.makeAll_of_some (habove x hs hx)
    · exact Tree.makeAll_of_not_suffix hs

theorem Tree.mount_of_not_dir (h : ¬ t.IsDir place) : t.mount place b = t := by
  funext x
  rw [Tree.mount]
  split
  · rename_i mounts hd
    exact absurd ⟨mounts, hd⟩ h
  · rfl

end

end MountTrees
