import KataAgent.LinkPaths
import KataAgent.Validator

namespace KataAgent
open Fallible TreePaths LinkPaths
set_option autoImplicit true

/-- A file system with symbolic links, whose names can be written in a path. -/
structure FileSystem where
  tree : LinkTree (List Char)
  names_ok : ∀ node e, tree.entry node = some e →
    ∀ name ∈ node, component name = some (.down name) ∧ '/' ∉ name

/-- The parts of a path, where an empty one and `.` stay. -/
def pathParts (path : List Char) : List (PathPart (List Char)) := (path.splitOn '/').map component

/-- The links that the kernel follows in one path. -/
def MAXSYMLINKS : Nat := 40

/-- The node of a path, from a working directory. -/
def FileSystem.locatePath (fs : FileSystem) (cwd path : List Char) : Option (List (List Char)) :=
  if path = [] then none
  else if path.head? = some '/' then locate fs.tree MAXSYMLINKS [] (pathParts path)
  else locate fs.tree MAXSYMLINKS (lexical cwd).names (pathParts path)

def pathText (node : List (List Char)) : List Char := if node = [] then ['/'] else nodeText node

/-- The answers that the file system determines; the other ones are those of `g`. -/
def FileSystem.guest (fs : FileSystem) (cwd : List Char) (g : ValidatorGuest) : ValidatorGuest :=
  { g with
    present := fun path => (fs.locatePath cwd path).isSome
    canonicalize := fun path =>
      match fs.locatePath cwd path with
      | some node => .ok (pathText node)
      | none => .error "No such file or directory (os error 2)" }

def Component.ofStep : Step (List Char) → Component
  | .up => .ParentDir
  | .down name => .Normal name

section
variable {path name : List Char} {node : List (List Char)} {steps : List (Step (List Char))}

theorem ofPart_eq (part : List Char) : Component.ofPart part = (component part).map .ofStep := by
  rw [Component.ofPart.eq_def]
  split
  · rfl
  · rfl
  · rfl
  · rename_i h₁ h₂ h₃
    rw [component.eq_4 part h₁ h₂ h₃]
    rfl

theorem components_absolute (h : path.head? = some '/') :
    components path = .RootDir :: (pathSteps path).map .ofStep := by
  obtain ⟨p, rfl⟩ := List.head?_eq_some_iff.1 h
  have hsplit : ('/' :: p).splitOn '/' = [] :: p.splitOn '/' := by
    rw [List.splitOn_cons_eq_if_modifyHead, if_pos BEq.rfl]
  rw [components, hsplit]
  dsimp only
  rw [if_neg (List.cons_ne_nil _ _), pathSteps_cons_slash, pathSteps, List.map_filterMap]
  simp only [ofPart_eq]

theorem ofStep_injective : Function.Injective Component.ofStep := by
  intro x y h
  cases x with
  | up =>
    cases y with
    | up => rfl
    | down b => cases h
  | down a =>
    cases y with
    | up => cases h
    | down b =>
      cases h
      rfl

/-- The texts of nodes are told apart by their components. -/
theorem components_text_inj {a b : Canonical} :
    components a.text = components b.text ↔ a.names = b.names := by
  rw [components_absolute a.head?_text, components_absolute b.head?_text, a.pathSteps_text,
    b.pathSteps_text, List.cons.injEq, and_iff_right rfl]
  constructor
  · intro h
    have hsteps := ofStep_injective.list_map h
    exact List.reverse_injective (down_injective.list_map hsteps)
  · intro h
    rw [h]

theorem cleanStep_ofStep (node : List (List Char)) (x : Step (List Char)) :
    cleanStep node.reverse (.ofStep x) = (x.apply node).reverse := by
  rw [cleanStep]
  cases x with
  | up =>
    cases node with
    | nil => rfl
    | cons a node =>
      have hne : (a :: node).reverse ≠ [] := List.reverse_ne_nil_iff.2 (List.cons_ne_nil _ _)
      rw [if_neg fun h => hne h.1, Component.ofStep, if_pos rfl, List.reverse_cons,
        List.dropLast_concat]
      rfl
  | down name =>
    rw [if_neg (by rintro ⟨-, h | h⟩ <;> cases h), if_neg (by intro h; cases h)]
    exact List.reverse_cons.symm

theorem foldl_cleanStep (node : List (List Char)) (steps : List (Step (List Char))) :
    (steps.map Component.ofStep).foldl cleanStep node.reverse = (walk node steps).reverse := by
  induction steps generalizing node with
  | nil => rfl
  | cons x steps ih => rw [List.map_cons, List.foldl_cons, cleanStep_ofStep, ih, walk_cons]

theorem pushPath_pathText
    (hnode : ∀ name ∈ node, component name = some (.down name) ∧ '/' ∉ name) :
    pushPath (pathText node) name = pathText (name :: node) := by
  rw [pushPath, pathText, pathText, if_neg (List.cons_ne_nil name node), nodeText]
  cases node with
  | nil => rfl
  | cons a node =>
    have ha := hnode a List.mem_cons_self
    have hne : a ≠ [] := by
      rintro rfl
      cases ha.1
    have hlast : (nodeText (a :: node)).getLast? ≠ some '/' := by
      rw [nodeText, List.getLast?_append, List.getLast?_cons_of_ne_nil hne,
        List.getLast?_eq_some_getLast hne, Option.some_or]
      intro hslash
      exact ha.2 (Option.some.inj hslash ▸ List.getLast_mem hne)
    have htext : nodeText (a :: node) ≠ [] := by
      rw [nodeText]
      exact List.append_ne_nil_of_right_ne_nil _ (List.cons_ne_nil _ _)
    rw [if_neg (List.cons_ne_nil a node), if_neg (by rintro (h | h); exacts [hlast h, htext h])]

theorem foldl_pushPath
    (hnode : ∀ name ∈ node, component name = some (.down name) ∧ '/' ∉ name) :
    node.reverse.foldl pushPath ['/'] = pathText node := by
  induction node with
  | nil => rfl
  | cons name node ih =>
    obtain ⟨-, hnode⟩ := List.forall_mem_cons.1 hnode
    rw [List.reverse_cons, List.foldl_append, ih hnode, List.foldl_cons, List.foldl_nil,
      pushPath_pathText hnode]

/-- The loop keeps the names of the lexical node. -/
theorem cleaned_eq (h : path.head? = some '/') : cleaned path = (lexical path).text := by
  have hroot : cleanStep [] .RootDir = [] := rfl
  have hfold := foldl_cleanStep [] (pathSteps path)
  rw [List.reverse_nil] at hfold
  rw [cleaned, components_absolute h, List.foldl_cons, hroot, hfold]
  exact foldl_pushPath (lexical path).names_ok

variable {fs : FileSystem} {g : ValidatorGuest} {cwd root : List Char}

theorem locatePath_absolute (h : root.head? = some '/') :
    fs.locatePath cwd root = locate fs.tree MAXSYMLINKS [] (pathParts root) := by
  have hne : root ≠ [] := by
    rintro rfl
    cases h
  rw [FileSystem.locatePath, if_neg hne, if_pos h]

theorem plain_pathParts (root : List Char) : plain [] (pathParts root) = (lexical root).names := by
  rw [plain, pathParts, List.filterMap_map]
  rfl

theorem settled_names (h : fs.tree.Settled node) :
    ∀ name ∈ node, component name = some (.down name) ∧ '/' ∉ name := by
  rcases h with h | h
  · exact fs.names_ok node _ h
  · exact fs.names_ok node _ h

theorem settled_root : fs.tree.Settled [] := .inl fs.tree.root

theorem guest_present : (fs.guest cwd g).present root = (fs.locatePath cwd root).isSome := rfl

theorem guest_canonicalize (h : fs.locatePath cwd root = some node) :
    (fs.guest cwd g).canonicalize root = .ok (pathText node) := by
  rw [FileSystem.guest]
  dsimp only
  rw [h]

theorem rootfs_eq_ok : rootfs (fs.guest cwd g) root = .ok () ↔
    root.head? = some '/' ∧ fs.locatePath cwd root = some (lexical root).names := by
  rw [rootfs, guest_present]
  by_cases habs : root.head? = some '/'
  · rw [and_iff_right habs]
    rcases hl : fs.locatePath cwd root with _ | node
    · exact iff_of_false nofun nofun
    · have hlocate := hl
      rw [locatePath_absolute habs] at hlocate
      have hsettled := locate_settled settled_root hlocate
      have hcanon : pathText node = (⟨node, settled_names hsettled⟩ : Canonical).text := rfl
      have hcomponents : components (cleaned root) = components (pathText node) ↔
          (lexical root).names = node := by
        rw [cleaned_eq habs, hcanon]
        exact components_text_inj
      have hexists : ¬ (!(some node).isSome || decide (root.head? ≠ some '/')) = true := by
        rw [habs]
        simp
      rw [if_neg hexists, guest_canonicalize hl, ioOutcome, Outcome.ok_bind, Option.some.injEq]
      by_cases hn : (lexical root).names = node
      · rw [if_neg (not_not_intro (hcomponents.2 hn))]
        exact iff_of_true rfl hn.symm
      · rw [if_pos (mt hcomponents.1 hn)]
        exact iff_of_false nofun (Ne.symm hn)
  · rw [if_pos (by rw [Bool.or_eq_true]; exact .inr (decide_eq_true habs))]
    exact iff_of_false nofun fun h => habs h.1

/-- Where no component is a link, it is enough that the path exists. -/
theorem rootfs_of_no_link (hno : ¬ MeetsLink fs.tree [] (pathParts root)) :
    rootfs (fs.guest cwd g) root = .ok () ↔
      root.head? = some '/' ∧ (fs.locatePath cwd root).isSome := by
  rw [rootfs_eq_ok]
  apply and_congr_right
  intro habs
  rw [Option.isSome_iff_exists]
  constructor
  · intro h
    exact ⟨_, h⟩
  · intro ⟨node, hl⟩
    have hplain := hl
    rw [locatePath_absolute habs] at hplain
    rw [hl, ← plain_pathParts, locate_of_no_link hno hplain]

end

/-- The check accepts the absolute paths that lead to the node of their lexical normal form. For
a path that meets no link this is every one that exists; a link that an accepted path meets is
left again by steps up. -/
theorem rootfs_accepts (fs : FileSystem) (cwd : List Char) (g : ValidatorGuest)
    (root : List Char) :
    (rootfs (fs.guest cwd g) root = .ok () ↔
      root.head? = some '/' ∧ fs.locatePath cwd root = some (lexical root).names) ∧
    (¬ MeetsLink fs.tree [] (pathParts root) → (rootfs (fs.guest cwd g) root = .ok () ↔
      root.head? = some '/' ∧ (fs.locatePath cwd root).isSome)) ∧
    (rootfs (fs.guest cwd g) root = .ok () → ∀ pre a post fromRoot target,
      pathParts root = pre ++ some (.down a) :: post →
      fs.tree.entry (a :: plain [] pre) = some (.link fromRoot target) →
      ¬ Stays 0 (post.filterMap id)) ∧
    ((∀ node fromRoot target, fs.tree.entry node ≠ some (.link fromRoot target)) →
      (rootfs (fs.guest cwd g) root = .ok () ↔
        root.head? = some '/' ∧ (fs.locatePath cwd root).isSome)) := by
  constructor
  · exact rootfs_eq_ok
  constructor
  · exact rootfs_of_no_link
  constructor
  · intro hok pre a post fromRoot target hparts hlink
    obtain ⟨habs, hl⟩ := rootfs_eq_ok.1 hok
    rw [locatePath_absolute habs, ← plain_pathParts, hparts] at hl
    exact not_stays_of_locate settled_root hlink hl
  · intro hno
    exact rootfs_of_no_link (not_meetsLink_of_no_links hno)

/-- A link in the root, and a directory that it leads to. -/
def linkEntry (node : List (List Char)) : Option (Entry (List Char)) :=
  if node = [] ∨ node = ["dir".toList] then some .dir
  else if node = ["link".toList] then some (.link true [some (.down "dir".toList)])
  else none

theorem linkEntry_cases (h : linkEntry node = some e) :
    node = [] ∨ node = ["dir".toList] ∨ node = ["link".toList] := by
  rw [linkEntry] at h
  by_cases hdir : node = [] ∨ node = ["dir".toList]
  · exact hdir.imp_right .inl
  · rw [if_neg hdir] at h
    by_cases hlink : node = ["link".toList]
    · exact .inr (.inr hlink)
    · rw [if_neg hlink] at h
      cases h

def linkSystem : FileSystem where
  tree :=
    { entry := linkEntry
      root := rfl
      parents := by
        intro name above e h
        rcases linkEntry_cases h with h | h | h
        · cases h
        · cases h
          rfl
        · cases h
          rfl }
  names_ok := by
    intro node e h
    rcases linkEntry_cases h with rfl | rfl | rfl
    · exact nofun
    · decide
    · decide

/-- The link is left again, so nothing shows that it was followed. -/
theorem rootfs_cancelledLink : ¬ ∀ (fs : FileSystem) (cwd : List Char) (g : ValidatorGuest)
    (root : List Char), rootfs (fs.guest cwd g) root = .ok () ↔
      root.head? = some '/' ∧ (fs.locatePath cwd root).isSome ∧
        ¬ MeetsLink fs.tree [] (pathParts root) := by
  intro h
  have hlocate : linkSystem.locatePath [] "/link/..".toList = some [] := by decide +kernel
  have hlexical : (lexical "/link/..".toList).names = [] := by decide
  have hparts : pathParts "/link/..".toList = [none, some (.down "link".toList), some .up] := by
    decide
  have hmeets : MeetsLink linkSystem.tree [] (pathParts "/link/..".toList) := by
    rw [hparts, meetsLink_stay rfl]
    exact meetsLink_link rfl rfl
  have hok : rootfs (linkSystem.guest [] ⟨fun _ => false, .ok, .ok, fun _ => .ok false⟩)
      "/link/..".toList = .ok () :=
    rootfs_eq_ok.2 ⟨rfl, by rw [hlocate, hlexical]⟩
  exact ((h linkSystem [] _ "/link/..".toList).1 hok).2.2 hmeets

end KataAgent
