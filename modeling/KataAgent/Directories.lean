import KataAgent.TreePaths

namespace TreePaths
set_option autoImplicit true

/-- The directories of a tree without links, each by its names on the way up. A path that does not
start with a slash starts at `cwd`. -/
structure Directories where
  there : List (List Char) → Bool
  cwd : List (List Char)
  there_root : there [] = true
  there_above : there (name :: node) = true → there node = true
  there_cwd : there cwd = true

/-- Every directory on the way has to be there. -/
def Directories.enter (ds : Directories) (node : List (List Char)) (x : Step (List Char)) :
    Option (List (List Char)) :=
  if ds.there (x.apply node) then some (x.apply node) else none

def Directories.follow (ds : Directories) (node : List (List Char)) (path : List Char) :
    Option (List (List Char)) :=
  (pathSteps path).foldlM ds.enter node

/-- The text is the first part of a path, so the empty one is the root. -/
def Directories.start (ds : Directories) (path : List Char) : List (List Char) :=
  if path = [] ∨ path.head? = some '/' then [] else ds.cwd

/-- The directory that is found under the path. -/
def Directories.named (ds : Directories) (path : List Char) : Option (List (List Char)) :=
  ds.follow (ds.start path) path

/-- Where the path leads, also when nothing is there. -/
def Directories.place (ds : Directories) (path : List Char) : List (List Char) :=
  walk (ds.start path) (pathSteps path)

/-- The proper ancestors, the nearest first. -/
def properAncestors (node : List (List Char)) : List (List (List Char)) := node.tails.tail

section
variable {ds : Directories} {node d : List (List Char)} {path p q name : List Char}

theorem properAncestors_cons : properAncestors (name :: node) = node.tails := rfl

theorem tails_eq_cons (node : List (List Char)) : node.tails = node :: properAncestors node := by
  cases node with
  | nil => rfl
  | cons n node => rfl

theorem mem_properAncestors (h : d <:+ node) (hne : d ≠ node) : d ∈ properAncestors node := by
  have hm := (List.mem_tails _ _).2 h
  rw [tails_eq_cons] at hm
  exact (List.mem_cons.1 hm).resolve_left hne

theorem Directories.there_of_suffix (h : ds.there node = true) (hs : d <:+ node) :
    ds.there d = true := by
  induction node with
  | nil => rwa [List.suffix_nil.1 hs]
  | cons n node ih =>
    rcases List.suffix_cons_iff.1 hs with rfl | hs
    · exact h
    · exact ih (ds.there_above h) hs

theorem Directories.there_start (ds : Directories) (path : List Char) :
    ds.there (ds.start path) = true := by
  rw [Directories.start]
  split
  · exact ds.there_root
  · exact ds.there_cwd

theorem Directories.enter_eq_some {x : Step (List Char)} :
    ds.enter node x = some d ↔ x.apply node = d ∧ ds.there d = true := by
  rw [Directories.enter, Option.ite_none_right_eq_some]
  constructor
  · rintro ⟨h, he⟩
    cases he
    exact ⟨rfl, h⟩
  · rintro ⟨rfl, h⟩
    exact ⟨h, rfl⟩

theorem Directories.follow_eq_some (h : ds.follow node path = some d) :
    d = walk node (pathSteps path) := by
  rw [Directories.follow] at h
  generalize pathSteps path = steps at h
  induction steps generalizing node with
  | nil =>
    cases h
    rfl
  | cons x steps ih =>
    rw [List.foldlM_cons] at h
    obtain ⟨e, he, h⟩ := Option.bind_eq_some_iff.1 h
    rw [walk_cons, (Directories.enter_eq_some.1 he).1]
    exact ih h

theorem Directories.follow_there (hn : ds.there node = true) (h : ds.follow node path = some d) :
    ds.there d = true := by
  rw [Directories.follow] at h
  generalize pathSteps path = steps at h
  induction steps generalizing node with
  | nil =>
    cases h
    exact hn
  | cons x steps ih =>
    rw [List.foldlM_cons] at h
    obtain ⟨e, he, h⟩ := Option.bind_eq_some_iff.1 h
    exact ih (Directories.enter_eq_some.1 he).2 h

theorem Directories.place_of_named (h : ds.named path = some d) : d = ds.place path :=
  Directories.follow_eq_some h

theorem Directories.there_of_named (h : ds.named path = some d) : ds.there d = true :=
  Directories.follow_there (ds.there_start path) h

theorem Directories.follow_append_slash (ds : Directories) (node : List (List Char))
    (p q : List Char) :
    ds.follow node (p ++ '/' :: q) = (ds.follow node p).bind fun d => ds.follow d q := by
  rw [Directories.follow, pathSteps_append_slash, List.foldlM_append]
  rfl

theorem Directories.start_append_slash (ds : Directories) (p q : List Char) :
    ds.start (p ++ '/' :: q) = ds.start p := by
  cases p with
  | nil => rfl
  | cons c p => simp [Directories.start]

/-- A longer path goes on from the directory that the shorter one leads to. -/
theorem Directories.named_append_slash (ds : Directories) (p q : List Char) :
    ds.named (p ++ '/' :: q) = (ds.named p).bind fun d => ds.follow d q := by
  rw [Directories.named, ds.start_append_slash, ds.follow_append_slash]
  rfl

theorem Directories.place_append_slash (ds : Directories) (p q : List Char) :
    ds.place (p ++ '/' :: q) = walk (ds.place p) (pathSteps q) := by
  rw [Directories.place, ds.start_append_slash, pathSteps_append_slash, walk_append]
  rfl

/-- Where every step goes down, only the last directory has to be looked for. -/
theorem Directories.follow_of_down {ds : Directories}
    (hp : .up ∉ pathSteps path) (h : ds.there (walk node (pathSteps path)) = true) :
    ds.follow node path = some (walk node (pathSteps path)) := by
  rw [Directories.follow]
  generalize pathSteps path = steps at hp h
  induction steps generalizing node with
  | nil => rfl
  | cons x steps ih =>
    obtain ⟨hx, hs⟩ := List.ne_and_not_mem_of_not_mem_cons hp
    cases x with
    | up => exact absurd rfl hx
    | down a =>
      have hsuffix : a :: node <:+ walk (a :: node) steps :=
        Stays.suffix [] (Stays.of_up_notMem hs)
      have hthere : ds.enter node (.down a) = some (a :: node) :=
        Directories.enter_eq_some.2 ⟨rfl, ds.there_of_suffix h hsuffix⟩
      rw [List.foldlM_cons, hthere]
      exact ih hs h

end

end TreePaths
