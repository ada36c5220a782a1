import KataAgent.TreePaths

namespace LinkPaths
open TreePaths
set_option autoImplicit true

/-- A part of a path: `none` stays at the node, which has to be a directory. -/
abbrev PathPart (α : Type) := Option (Step α)

inductive Entry (α : Type) where
  | dir
  | file
  | link (fromRoot : Bool) (target : List (PathPart α))

/-- What a tree of names has at its nodes. Only a directory has something below it. -/
structure LinkTree (α : Type) where
  entry : List α → Option (Entry α)
  root : entry [] = some .dir
  parents : ∀ name above e, entry (name :: above) = some e → entry above = some .dir

/-- The parts of a path, followed from a node; `follow` goes on where a link is met. -/
def follow (t : LinkTree α) (next : List α → List (PathPart α) → Option (List α)) :
    List α → List (PathPart α) → Option (List α)
  | node, [] => some node
  | node, part :: parts =>
    match t.entry node with
    | some .dir =>
      match part with
      | none => follow t next node parts
      | some .up => follow t next node.tail parts
      | some (.down a) =>
        match t.entry (a :: node) with
        | none => none
        | some (.link fromRoot target) => next (if fromRoot then [] else node) (target ++ parts)
        | some .dir => follow t next (a :: node) parts
        | some .file => follow t next (a :: node) parts
    | _ => none

/-- The node that a path leads to when at most so many links are followed. -/
def locate (t : LinkTree α) : Nat → List α → List (PathPart α) → Option (List α)
  | 0 => follow t fun _ _ => none
  | links + 1 => follow t (locate t links)

/-- A component of the path is a link, whatever comes behind it. -/
def MeetsLink (t : LinkTree α) : List α → List (PathPart α) → Prop
  | _, [] => False
  | node, part :: parts =>
    match t.entry node with
    | some .dir =>
      match part with
      | none => MeetsLink t node parts
      | some .up => MeetsLink t node.tail parts
      | some (.down a) =>
        match t.entry (a :: node) with
        | none => False
        | some (.link _ _) => True
        | some .dir => MeetsLink t (a :: node) parts
        | some .file => MeetsLink t (a :: node) parts
    | _ => False

/-- The node of the path when no link is followed. -/
def plain (node : List α) (parts : List (PathPart α)) : List α := walk node (parts.filterMap id)

/-- The node is a directory or a file. -/
def LinkTree.Settled (t : LinkTree α) (node : List α) : Prop :=
  t.entry node = some .dir ∨ t.entry node = some .file

/-- What a part does at a node. -/
inductive StepCase (t : LinkTree α) (node : List α) : PathPart α → Prop where
  | stuck (h : t.entry node ≠ some .dir) : StepCase t node part
  | stay (h : t.entry node = some .dir) : StepCase t node none
  | up (h : t.entry node = some .dir) : StepCase t node (some .up)
  | missing (h : t.entry node = some .dir) (hm : t.entry (a :: node) = none) :
      StepCase t node (some (.down a))
  | down (h : t.entry node = some .dir) (hs : t.Settled (a :: node)) :
      StepCase t node (some (.down a))
  | link (h : t.entry node = some .dir)
      (hl : t.entry (a :: node) = some (.link fromRoot target)) : StepCase t node (some (.down a))

section
variable {α : Type} {t : LinkTree α} {node dest : List α} {a : α} {part : PathPart α}
  {parts : List (PathPart α)} {next : List α → List (PathPart α) → Option (List α)}
  {fromRoot : Bool} {target : List (PathPart α)}

@[simp] theorem plain_nil : plain node [] = node := rfl

@[simp] theorem plain_stay : plain node (none :: parts) = plain node parts := rfl

@[simp] theorem plain_up : plain node (some .up :: parts) = plain node.tail parts := rfl

@[simp] theorem plain_down : plain node (some (.down a) :: parts) = plain (a :: node) parts := rfl

attribute [local simp] follow MeetsLink

theorem follow_of_not_dir (h : t.entry node ≠ some .dir) :
    follow t next node (part :: parts) = none := by
  rw [follow.eq_def]
  dsimp only
  split
  · rename_i hd
    exact absurd hd h
  · rfl

theorem follow_stay (h : t.entry node = some .dir) :
    follow t next node (none :: parts) = follow t next node parts := by
  simp [h]

theorem follow_up (h : t.entry node = some .dir) :
    follow t next node (some .up :: parts) = follow t next node.tail parts := by
  simp [h]

theorem follow_down (h : t.entry node = some .dir) (ha : t.Settled (a :: node)) :
    follow t next node (some (.down a) :: parts) = follow t next (a :: node) parts := by
  rcases ha with ha | ha
  · simp [h, ha]
  · simp [h, ha]

theorem follow_link (h : t.entry node = some .dir)
    (ha : t.entry (a :: node) = some (.link fromRoot target)) :
    follow t next node (some (.down a) :: parts) =
      next (if fromRoot then [] else node) (target ++ parts) := by
  simp [h, ha]

theorem follow_missing (h : t.entry node = some .dir) (ha : t.entry (a :: node) = none) :
    follow t next node (some (.down a) :: parts) = none := by
  simp [h, ha]

theorem meetsLink_of_not_dir (h : t.entry node ≠ some .dir) :
    ¬ MeetsLink t node (part :: parts) := by
  rw [MeetsLink.eq_def]
  dsimp only
  split
  · rename_i hd
    exact absurd hd h
  · exact not_false

theorem meetsLink_stay (h : t.entry node = some .dir) :
    MeetsLink t node (none :: parts) ↔ MeetsLink t node parts := by
  simp [h]

theorem meetsLink_up (h : t.entry node = some .dir) :
    MeetsLink t node (some .up :: parts) ↔ MeetsLink t node.tail parts := by
  simp [h]

theorem meetsLink_down (h : t.entry node = some .dir) (ha : t.Settled (a :: node)) :
    MeetsLink t node (some (.down a) :: parts) ↔ MeetsLink t (a :: node) parts := by
  rcases ha with ha | ha
  · simp [h, ha]
  · simp [h, ha]

theorem meetsLink_link (h : t.entry node = some .dir)
    (ha : t.entry (a :: node) = some (.link fromRoot target)) :
    MeetsLink t node (some (.down a) :: parts) := by
  simp [h, ha]

theorem stepCase (t : LinkTree α) (node : List α) (part : PathPart α) : StepCase t node part := by
  by_cases h : t.entry node = some .dir
  · cases part with
    | none => exact .stay h
    | some step =>
      cases step with
      | up => exact .up h
      | down a =>
        cases ha : t.entry (a :: node) with
        | none => exact .missing h ha
        | some e =>
          cases e with
          | dir => exact .down h (.inl ha)
          | file => exact .down h (.inr ha)
          | link fromRoot target => exact .link h ha
  · exact .stuck h

theorem LinkTree.tail_dir (h : t.entry node = some .dir) : t.entry node.tail = some .dir := by
  cases node with
  | nil => exact t.root
  | cons a above => exact t.parents a above _ h

/-- What is above a directory or a file is a directory. -/
theorem LinkTree.Settled.suffix {l : List α} (h : t.Settled node) (hl : l <:+ node) :
    t.Settled l := by
  induction node with
  | nil =>
    rw [List.suffix_nil.1 hl]
    exact h
  | cons a above ih =>
    rcases List.suffix_cons_iff.1 hl with rfl | hl
    · exact h
    · have habove : t.entry above = some .dir := by
        rcases h with h | h
        · exact t.parents a above _ h
        · exact t.parents a above _ h
      exact ih (.inl habove) hl

/-- Where no link is met, the path leads where its parts say. -/
theorem follow_of_no_link (h : ¬ MeetsLink t node parts)
    (hf : follow t next node parts = some dest) : plain node parts = dest := by
  induction parts generalizing node with
  | nil =>
    cases hf
    rfl
  | cons part parts ih =>
    cases stepCase t node part with
    | stuck hd =>
      rw [follow_of_not_dir hd] at hf
      cases hf
    | stay hd =>
      rw [meetsLink_stay hd] at h
      rw [follow_stay hd] at hf
      exact ih h hf
    | up hd =>
      rw [meetsLink_up hd] at h
      rw [follow_up hd] at hf
      exact ih h hf
    | missing hd ha =>
      rw [follow_missing hd ha] at hf
      cases hf
    | down hd ha =>
      rw [meetsLink_down hd ha] at h
      rw [follow_down hd ha] at hf
      exact ih h hf
    | link hd ha => exact absurd (meetsLink_link hd ha) h

theorem follow_settled (hnext : ∀ {n ps d}, t.Settled n → next n ps = some d → t.Settled d)
    (h : t.Settled node) (hf : follow t next node parts = some dest) : t.Settled dest := by
  induction parts generalizing node with
  | nil =>
    cases hf
    exact h
  | cons part parts ih =>
    cases stepCase t node part with
    | stuck hd =>
      rw [follow_of_not_dir hd] at hf
      cases hf
    | stay hd =>
      rw [follow_stay hd] at hf
      exact ih h hf
    | up hd =>
      rw [follow_up hd] at hf
      exact ih (.inl (LinkTree.tail_dir hd)) hf
    | missing hd ha =>
      rw [follow_missing hd ha] at hf
      cases hf
    | down hd ha =>
      rw [follow_down hd ha] at hf
      exact ih ha hf
    | @link a fromRoot target hd ha =>
      rw [follow_link hd ha] at hf
      apply hnext _ hf
      cases fromRoot with
      | true => exact .inl t.root
      | false => exact .inl hd

theorem locate_of_no_link {links : Nat} (h : ¬ MeetsLink t node parts)
    (hl : locate t links node parts = some dest) : plain node parts = dest := by
  cases links with
  | zero => exact follow_of_no_link h hl
  | succ links => exact follow_of_no_link h hl

/-- A path never ends at a link. -/
theorem locate_settled {links : Nat} (h : t.Settled node)
    (hl : locate t links node parts = some dest) : t.Settled dest := by
  induction links generalizing node parts dest with
  | zero => exact follow_settled (fun _ hn => by cases hn) h hl
  | succ links ih => exact follow_settled ih h hl

theorem plain_append (ps qs : List (PathPart α)) :
    plain node (ps ++ qs) = plain (plain node ps) qs := by
  rw [plain, List.filterMap_append, walk_append]
  rfl

/-- The first link that is met is the child of a node that the parts before it say. -/
theorem MeetsLink.split (h : MeetsLink t node parts) : ∃ pre a post fromRoot target,
    parts = pre ++ some (.down a) :: post ∧
      t.entry (a :: plain node pre) = some (.link fromRoot target) := by
  induction parts generalizing node with
  | nil => exact h.elim
  | cons part parts ih =>
    cases stepCase t node part with
    | stuck hd => exact absurd h (meetsLink_of_not_dir hd)
    | stay hd =>
      obtain ⟨pre, a, post, fromRoot, target, rfl, hlink⟩ := ih ((meetsLink_stay hd).1 h)
      exact ⟨none :: pre, a, post, fromRoot, target, rfl, hlink⟩
    | up hd =>
      obtain ⟨pre, a, post, fromRoot, target, rfl, hlink⟩ := ih ((meetsLink_up hd).1 h)
      exact ⟨some .up :: pre, a, post, fromRoot, target, rfl, hlink⟩
    | missing hd hm => simp only [MeetsLink, hd, hm] at h
    | @down b hd hs =>
      obtain ⟨pre, a, post, fromRoot, target, rfl, hlink⟩ := ih ((meetsLink_down hd hs).1 h)
      exact ⟨some (.down b) :: pre, a, post, fromRoot, target, rfl, hlink⟩
    | @link a fromRoot target hd hl => exact ⟨[], a, parts, fromRoot, target, rfl, hl⟩

/-- A link on the way to the node that the parts say is left again by steps up. -/
theorem not_stays_of_locate {links : Nat} {pre post : List (PathPart α)} (h : t.Settled node)
    (hlink : t.entry (a :: plain node pre) = some (.link fromRoot target))
    (hl : locate t links node (pre ++ some (.down a) :: post) =
      some (plain node (pre ++ some (.down a) :: post))) : ¬ Stays 0 (post.filterMap id) := by
  intro hstays
  have hsuffix : a :: plain node pre <:+ plain node (pre ++ some (.down a) :: post) := by
    rw [plain_append, plain_down]
    rw [← List.nil_append (a :: plain node pre)]
    exact hstays.suffix []
  rcases (locate_settled h hl).suffix hsuffix with hs | hs
  · cases hlink.symm.trans hs
  · cases hlink.symm.trans hs

/-- In a tree without links none is met. -/
theorem not_meetsLink_of_no_links (hno : ∀ node fromRoot target,
    t.entry node ≠ some (.link fromRoot target)) : ¬ MeetsLink t node parts := by
  induction parts generalizing node with
  | nil => exact id
  | cons part parts ih =>
    intro h
    cases stepCase t node part with
    | stuck hd => exact meetsLink_of_not_dir hd h
    | stay hd => exact ih ((meetsLink_stay hd).1 h)
    | up hd => exact ih ((meetsLink_up hd).1 h)
    | missing hd ha => simp only [MeetsLink, hd, ha] at h
    | down hd ha => exact ih ((meetsLink_down hd ha).1 h)
    | link hd ha => exact hno _ _ _ ha

end

end LinkPaths
