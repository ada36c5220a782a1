import Mathlib.Data.List.Infix
import KataAgent.Segments

namespace TreePaths
set_option autoImplicit true

/-- A step in a tree of names: to the parent, or to the child of a name. -/
inductive Step (α : Type) where
  | up
  | down (name : α)
  deriving DecidableEq

/-- A node is the list of the names on the way up to the root, which is its own parent. -/
def Step.apply : List α → Step α → List α
  | node, .up => node.tail
  | node, .down a => a :: node

def walk (node : List α) (steps : List (Step α)) : List α := steps.foldl Step.apply node

/-- The steps, taken `depth` levels below a node, never lead above it. -/
def Stays : Nat → List (Step α) → Prop
  | _, [] => True
  | depth, .down _ :: steps => Stays (depth + 1) steps
  | 0, .up :: _ => False
  | depth + 1, .up :: steps => Stays depth steps

def decideStays : (depth : Nat) → (steps : List (Step α)) → Decidable (Stays depth steps)
  | _, [] => .isTrue trivial
  | depth, .down _ :: steps => decideStays (depth + 1) steps
  | 0, .up :: _ => .isFalse id
  | depth + 1, .up :: steps => decideStays depth steps

instance {depth : Nat} {steps : List (Step α)} : Decidable (Stays depth steps) :=
  decideStays depth steps

section
variable {α : Type} {node base : List α} {a : α} {depth : Nat} {s t : List (Step α)}

@[simp] theorem walk_nil : walk node [] = node := rfl

@[simp] theorem walk_cons {x : Step α} : walk node (x :: s) = walk (x.apply node) s := rfl

@[simp] theorem walk_append : walk node (s ++ t) = walk (walk node s) t := List.foldl_append

theorem walk_down (names : List α) : walk node (names.reverse.map Step.down) = names ++ node := by
  induction names with
  | nil => rfl
  | cons a names ih =>
    rw [List.reverse_cons, List.map_append, walk_append, ih]
    rfl

theorem mem_walk (h : a ∈ walk node s) : a ∈ node ∨ .down a ∈ s := by
  induction s generalizing node with
  | nil => exact .inl h
  | cons x s ih =>
    rcases ih h with hn | hs
    · cases x with
      | up => exact .inl (List.mem_of_mem_tail hn)
      | down b =>
        rcases List.mem_cons.1 hn with rfl | hn
        · exact .inr List.mem_cons_self
        · exact .inl hn
    · exact .inr (List.mem_cons_of_mem _ hs)

theorem Stays.suffix (below : List α) (h : Stays below.length s) :
    base <:+ walk (below ++ base) s := by
  induction s generalizing below with
  | nil => exact List.suffix_append _ _
  | cons x s ih =>
    cases x with
    | down a => exact ih (a :: below) h
    | up =>
      cases below with
      | nil => exact h.elim
      | cons b below => exact ih below h

/-- From a node with a name of its own, steps that end below it never left. -/
theorem Stays.of_suffix (below : List α) (ha : .down a ∉ s) (h : [a] <:+ walk (below ++ [a]) s) :
    Stays below.length s := by
  induction s generalizing below with
  | nil => trivial
  | cons x s ih =>
    have hs : .down a ∉ s := fun hm => ha (List.mem_cons_of_mem _ hm)
    cases x with
    | down b => exact ih (b :: below) hs h
    | up =>
      cases below with
      | nil =>
        have hm : a ∈ walk [] s := h.mem List.mem_cons_self
        rcases mem_walk hm with hn | hm
        · cases hn
        · exact hs hm
      | cons b below => exact ih below hs h

theorem Stays.of_prefix (h : Stays depth t) (hp : s <+: t) : Stays depth s := by
  induction s generalizing depth t with
  | nil => trivial
  | cons x s ih =>
    obtain ⟨r, rfl⟩ := hp
    cases x with
    | down a =>
      have hs : Stays (depth + 1) (s ++ r) := h
      exact ih hs (List.prefix_append s r)
    | up =>
      cases depth with
      | zero => exact h.elim
      | succ depth =>
        have hs : Stays depth (s ++ r) := h
        exact ih hs (List.prefix_append s r)

theorem Stays.of_up_notMem (h : .up ∉ s) : Stays depth s := by
  induction s generalizing depth with
  | nil => trivial
  | cons x s ih =>
    cases x with
    | up => exact absurd List.mem_cons_self h
    | down a => exact ih fun hm => h (List.mem_cons_of_mem _ hm)

end

/-- What a component of a path does: an empty one and `.` do nothing. -/
def component : List Char → Option (Step (List Char))
  | [] => none
  | ['.'] => none
  | ['.', '.'] => some .up
  | name => some (.down name)

def pathSteps (path : List Char) : List (Step (List Char)) := (path.splitOn '/').filterMap component

/-- The node that a path leads to, lexically. -/
def resolve (node : List (List Char)) (path : List Char) : List (List Char) :=
  walk (if path.head? = some '/' then [] else node) (pathSteps path)

def nodeText : List (List Char) → List Char
  | [] => []
  | name :: node => nodeText node ++ '/' :: name

/-- A node whose names can be written in a path. -/
structure Canonical where
  names : List (List Char)
  names_ok : ∀ name ∈ names, component name = some (.down name) ∧ '/' ∉ name

def Canonical.text (c : Canonical) : List Char :=
  if c.names = [] then ['/'] else nodeText c.names

section
variable {p q name : List Char} {node : List (List Char)} {c : Canonical}

@[simp] theorem pathSteps_append_slash :
    pathSteps (p ++ '/' :: q) = pathSteps p ++ pathSteps q := by
  rw [pathSteps, List.splitOn_append_cons_self, List.filterMap_append]
  rfl

@[simp] theorem pathSteps_cons_slash : pathSteps ('/' :: p) = pathSteps p :=
  pathSteps_append_slash (p := [])

theorem pathSteps_of_slash_notMem (h : '/' ∉ p) : pathSteps p = (component p).toList := by
  rw [pathSteps, List.splitOn_eq_singleton h]
  cases hc : component p with
  | none => rw [List.filterMap_cons_none hc]; rfl
  | some x => rw [List.filterMap_cons_some hc]; rfl

theorem component_eq_up (h : component name = some .up) : name = ['.', '.'] := by
  unfold component at h
  split at h
  · cases h
  · cases h
  · rfl
  · cases h

theorem component_eq_down (h : component name = some (.down q)) : name = q := by
  unfold component at h
  split at h
  · cases h
  · cases h
  · cases h
  · cases h
    rfl

theorem infix_of_mem_splitOn {x : Char} (h : q ∈ p.splitOn x) : q <:+: p := by
  have hp : [x].intercalate (p.splitOn x) = p := List.intercalate_splitOn x
  rw [← hp]
  generalize p.splitOn x = ls at h
  induction ls with
  | nil => cases h
  | cons l ls ih =>
    cases ls with
    | nil =>
      rw [List.mem_singleton.1 h, List.intercalate_singleton]
    | cons m ls =>
      rw [List.intercalate_cons_cons, List.append_assoc]
      rcases List.mem_cons.1 h with rfl | h
      · exact (List.prefix_append _ _).isInfix
      · exact (ih h).trans ((List.suffix_append _ _).trans (List.suffix_append _ _)).isInfix

theorem infix_of_up_mem (h : .up ∈ pathSteps p) : ['.', '.'] <:+: p := by
  obtain ⟨name, hname, hc⟩ := List.mem_filterMap.1 h
  rw [← component_eq_up hc]
  exact infix_of_mem_splitOn hname

theorem infix_of_down_mem (h : .down q ∈ pathSteps p) : q <:+: p := by
  obtain ⟨name, hname, hc⟩ := List.mem_filterMap.1 h
  rw [← component_eq_down hc]
  exact infix_of_mem_splitOn hname

theorem pathSteps_nodeText (h : ∀ name ∈ node, component name = some (.down name) ∧ '/' ∉ name) :
    pathSteps (nodeText node) = node.reverse.map .down := by
  induction node with
  | nil => rfl
  | cons name node ih =>
    obtain ⟨⟨hc, hs⟩, hn⟩ := List.forall_mem_cons.1 h
    rw [nodeText, pathSteps_append_slash, ih hn, pathSteps_of_slash_notMem hs, hc,
      List.reverse_cons, List.map_append]
    rfl

@[simp] theorem Canonical.pathSteps_text : pathSteps c.text = c.names.reverse.map .down := by
  rw [Canonical.text]
  split
  case isTrue h => rw [h]; rfl
  case isFalse => exact pathSteps_nodeText c.names_ok

theorem head?_nodeText (h : node ≠ []) : (nodeText node).head? = some '/' := by
  induction node with
  | nil => exact absurd rfl h
  | cons name node ih =>
    rw [nodeText, List.head?_append]
    cases node with
    | nil => rfl
    | cons b node => rw [ih nofun]; rfl

@[simp] theorem Canonical.head?_text : c.text.head? = some '/' := by
  rw [Canonical.text]
  split
  · rfl
  case isFalse h => exact head?_nodeText h

theorem Canonical.resolve_append :
    resolve node (c.text ++ '/' :: p) = walk c.names (pathSteps p) := by
  rw [resolve, List.head?_append, c.head?_text, Option.some_or, if_pos rfl, pathSteps_append_slash,
    c.pathSteps_text, walk_append, walk_down, List.append_nil]

theorem Canonical.resolve_text : resolve node c.text = c.names := by
  rw [resolve, c.head?_text, if_pos rfl, c.pathSteps_text, walk_down, List.append_nil]

theorem resolve_relative (h : p.head? ≠ some '/') : resolve node p = walk node (pathSteps p) := by
  rw [resolve, if_neg h]

end

/-- The node that an absolute path leads to, with no link followed. -/
def lexical (path : List Char) : Canonical where
  names := walk [] (pathSteps path)
  names_ok name hn := by
    have hmem := (mem_walk hn).resolve_left List.not_mem_nil
    obtain ⟨part, hpart, hc⟩ := List.mem_filterMap.1 hmem
    cases component_eq_down hc
    exact ⟨hc, Segments.notMem_of_mem_splitOn hpart⟩

section
variable {l node node' : List (List Char)} {a b c : Canonical}

theorem nodeText_append (node : List (List Char)) (hl : l ≠ []) :
    ∃ s, nodeText (l ++ node) = nodeText node ++ '/' :: s := by
  induction l with
  | nil => exact absurd rfl hl
  | cons name l ih =>
    cases l with
    | nil => exact ⟨name, rfl⟩
    | cons name' l =>
      obtain ⟨s, hs⟩ := ih (List.cons_ne_nil _ _)
      refine ⟨s ++ '/' :: name, ?_⟩
      rw [List.cons_append, nodeText, hs, List.append_assoc]
      rfl

theorem nodeText_prefix (h : node <:+ node') : nodeText node <+: nodeText node' := by
  obtain ⟨l, rfl⟩ := h
  cases l with
  | nil => exact List.prefix_rfl
  | cons name l =>
    obtain ⟨s, hs⟩ := nodeText_append node (List.cons_ne_nil name l)
    exact ⟨_, hs.symm⟩

theorem Canonical.text_of_ne (h : c.names ≠ []) : c.text = nodeText c.names := if_neg h

/-- The path of a node starts with the paths of the nodes above it. -/
theorem Canonical.text_prefix (h : a.names <:+ b.names) : a.text <+: b.text := by
  by_cases ha : a.names = []
  · obtain ⟨p, hp⟩ := List.head?_eq_some_iff.1 b.head?_text
    rw [Canonical.text, if_pos ha, hp]
    exact ⟨p, rfl⟩
  · have hb : b.names ≠ [] := by
      intro hb
      rw [hb] at h
      exact ha (List.suffix_nil.1 h)
    rw [a.text_of_ne ha, b.text_of_ne hb]
    exact nodeText_prefix h

/-- A prefix that is longer than the part before a character has that character too. -/
theorem prefix_past {x y t : List Char} {c : Char} (hy : y <+: x ++ c :: t) (hn : ¬ y <+: x) :
    ∃ r, y = x ++ c :: r := by
  rcases List.prefix_or_prefix_of_prefix hy (List.prefix_append _ _) with hp | hp
  · exact absurd hp hn
  · obtain ⟨r, rfl⟩ := hp
    cases r with
    | nil =>
      rw [List.append_nil] at hn
      exact absurd List.prefix_rfl hn
    | cons d r =>
      rw [List.prefix_append_right_inj, List.cons_prefix_cons] at hy
      exact ⟨r, by rw [hy.1]⟩

theorem down_injective : Function.Injective (Step.down : List Char → Step (List Char)) := by
  intro x y h
  cases h
  rfl

/-- A path that goes on behind another path and a slash is a path below it. -/
theorem Canonical.suffix_of_slash {r : List Char}
    (h : nodeText b.names = nodeText a.names ++ '/' :: r) : a.names <:+ b.names := by
  have hsteps : b.names.reverse.map Step.down = a.names.reverse.map Step.down ++ pathSteps r := by
    rw [← pathSteps_nodeText b.names_ok, h, pathSteps_append_slash,
      pathSteps_nodeText a.names_ok]
  obtain ⟨u, v, huv, hu, -⟩ := List.map_eq_append_iff.1 hsteps
  have hrev : a.names.reverse <+: b.names.reverse := ⟨v, by rw [huv, down_injective.list_map hu]⟩
  exact List.reverse_prefix.1 hrev

/-- Of two paths that a third starts with, one by components, the shorter is above the longer. -/
theorem Canonical.suffix_of_prefix (ha : a.names <:+ c.names) (hb : b.text <+: c.text)
    (hn : ¬ b.text <+: a.text) : a.names <:+ b.names := by
  by_cases hnil : a.names = []
  · rw [hnil]
    exact List.nil_suffix
  obtain ⟨l, hl⟩ := ha
  have hne : l ≠ [] := by
    intro he
    rw [he] at hl
    have hac : a.text = c.text := by
      rw [Canonical.text, Canonical.text, ← hl]
      rfl
    exact hn (hac ▸ hb)
  have hcn : c.names ≠ [] := by
    intro he
    rw [he] at hl
    exact hnil (List.append_eq_nil_iff.1 hl).2
  have hbn : b.names ≠ [] := by
    intro he
    apply hn
    apply Canonical.text_prefix
    rw [he]
    exact List.nil_suffix
  obtain ⟨s, hs⟩ := nodeText_append a.names hne
  rw [a.text_of_ne hnil, b.text_of_ne hbn] at hn
  rw [b.text_of_ne hbn, c.text_of_ne hcn, ← hl, hs] at hb
  obtain ⟨r, hr⟩ := prefix_past hb hn
  exact Canonical.suffix_of_slash hr

end

end TreePaths
