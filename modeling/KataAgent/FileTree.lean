import KataAgent.Table

namespace FileTrees
set_option autoImplicit true

/-- What a node of a tree is: a directory, or a file with its units of data. -/
inductive Entry (β : Type) where
  | dir
  | file (data : List β)
  deriving DecidableEq

def Entry.decideDir : (o : Option (Entry β)) → Decidable (o = some .dir)
  | some .dir => .isTrue rfl
  | some (.file _) => .isFalse nofun
  | none => .isFalse nofun

instance {o : Option (Entry β)} : Decidable (o = some .dir) := Entry.decideDir o

/-- A tree of directories and files. A node is the list of the names on the way up to the root, a
directory as every node with something below it is. -/
structure FileTree (α β : Type) [DecidableEq α] where
  entries : Table (List α) (Entry β)
  root : entries.lookup [] = some .dir
  parents : ∀ name above e, entries.lookup (name :: above) = some e →
    entries.lookup above = some .dir

section
variable {α β : Type} [DecidableEq α]

def FileTree.lookup (t : FileTree α β) (node : List α) : Option (Entry β) := t.entries.lookup node

/-- An entry can be made at the node. -/
def FileTree.HasRoom (t : FileTree α β) : List α → Prop
  | [] => False
  | name :: above => t.lookup (name :: above) ≠ some .dir ∧ t.lookup above = some .dir

def FileTree.decideHasRoom (t : FileTree α β) : (node : List α) → Decidable (t.HasRoom node)
  | [] => .isFalse id
  | name :: above =>
    inferInstanceAs (Decidable (t.lookup (name :: above) ≠ some .dir ∧ t.lookup above = some .dir))

instance {t : FileTree α β} {node : List α} : Decidable (t.HasRoom node) :=
  t.decideHasRoom node

variable {t : FileTree α β} {node dest x : List α} {data : List β}

theorem FileTree.ext_lookup {u : FileTree α β} (h : ∀ x, t.lookup x = u.lookup x) : t = u := by
  cases t with
  | mk entries root parents =>
    cases u with
    | mk entries' root' parents' =>
      have he : entries = entries' := Finmap.ext_lookup h
      cases he
      rfl

theorem FileTree.HasRoom.not_dir (h : t.HasRoom node) : t.lookup node ≠ some .dir := by
  cases node with
  | nil => exact h.elim
  | cons name above => exact h.1

theorem FileTree.hasRoom_of_parent (hd : t.lookup node ≠ some .dir)
    (hp : t.lookup node.tail = some .dir) : t.HasRoom node := by
  cases node with
  | nil => exact hd t.root
  | cons name above => exact ⟨hd, hp⟩

theorem FileTree.parent_of_lookup (h : t.lookup node = some e) :
    t.lookup node.tail = some .dir := by
  cases node with
  | nil => exact t.root
  | cons name above => exact t.parents name above e h

theorem FileTree.hasRoom_of_file (h : t.lookup node = some (.file data)) : t.HasRoom node := by
  apply FileTree.hasRoom_of_parent
  · intro hd
    cases h.symm.trans hd
  · exact FileTree.parent_of_lookup h

theorem FileTree.put_root {e : Entry β} (h : t.HasRoom node) :
    (t.entries.insert node e).lookup [] = some .dir := by
  rw [Table.lookup_insert]
  split
  · rename_i hx
    rw [← hx] at h
    exact h.elim
  · exact t.root

theorem FileTree.put_parents {new : Entry β} (h : t.HasRoom node) (name : α) (above : List α)
    (e : Entry β) (he : (t.entries.insert node new).lookup (name :: above) = some e) :
    (t.entries.insert node new).lookup above = some .dir := by
  have hdir : t.lookup above = some .dir := by
    rw [Table.lookup_insert] at he
    split at he
    · rename_i hx
      rw [← hx] at h
      exact h.2
    · exact t.parents name above e he
  rw [Table.lookup_insert, if_neg]
  · exact hdir
  · intro hx
    exact h.not_dir (hx ▸ hdir)

/-- Make an entry where there is room for one. -/
def FileTree.put (t : FileTree α β) (node : List α) (e : Entry β) : FileTree α β :=
  if h : t.HasRoom node then ⟨t.entries.insert node e, put_root h, put_parents h⟩ else t

theorem FileTree.remove_root (h : t.lookup node ≠ some .dir) :
    (t.entries.erase node).lookup [] = some .dir := by
  rw [Table.lookup_erase, if_neg]
  · exact t.root
  · intro hx
    exact h (hx ▸ t.root)

theorem FileTree.remove_parents (h : t.lookup node ≠ some .dir) (name : α) (above : List α)
    (e : Entry β) (he : (t.entries.erase node).lookup (name :: above) = some e) :
    (t.entries.erase node).lookup above = some .dir := by
  have hdir := t.parents name above e (Table.of_lookup_erase he).2
  rw [Table.lookup_erase, if_neg]
  · exact hdir
  · intro hx
    exact h (hx ▸ hdir)

/-- Remove a file. -/
def FileTree.remove (t : FileTree α β) (node : List α) : FileTree α β :=
  if h : t.lookup node ≠ some .dir then
    ⟨t.entries.erase node, remove_root h, remove_parents h⟩
  else t

theorem FileTree.lookup_put (h : t.HasRoom node) :
    (t.put node e).lookup x = if x = node then some e else t.lookup x := by
  rw [FileTree.put, dif_pos h]
  exact Table.lookup_insert t.entries node e x

theorem FileTree.lookup_put_self (h : t.HasRoom node) :
    (t.put node e).lookup node = some e := by
  rw [FileTree.lookup_put h, if_pos rfl]

theorem FileTree.lookup_put_ne (h : x ≠ node) : (t.put node e).lookup x = t.lookup x := by
  rw [FileTree.put]
  split
  · exact (Table.lookup_insert t.entries node e x).trans (if_neg h)
  · rfl

theorem FileTree.lookup_remove (h : t.lookup node ≠ some .dir) :
    (t.remove node).lookup x = if x = node then none else t.lookup x := by
  rw [FileTree.remove, dif_pos h]
  exact Table.lookup_erase t.entries node x

theorem FileTree.lookup_remove_ne (h : x ≠ node) : (t.remove node).lookup x = t.lookup x := by
  rw [FileTree.remove]
  split
  · exact (Table.lookup_erase t.entries node x).trans (if_neg h)
  · rfl

theorem FileTree.lookup_root_cons {name : α} {above : List α} :
    (Finmap.singleton [] .dir : Table (List α) (Entry β)).lookup (name :: above) = none := by
  apply Table.notMem_iff.1
  rw [Finmap.mem_singleton]
  exact List.cons_ne_nil name above

theorem FileTree.empty_parents (name : α) (above : List α) (e : Entry β)
    (h : (Finmap.singleton [] .dir : Table (List α) (Entry β)).lookup (name :: above) = some e) :
    (Finmap.singleton [] .dir : Table (List α) (Entry β)).lookup above = some .dir := by
  rw [FileTree.lookup_root_cons] at h
  cases h

/-- The tree of the root alone. -/
def FileTree.empty : FileTree α β :=
  ⟨Finmap.singleton [] .dir, Finmap.lookup_singleton_eq, empty_parents⟩

/-- The tree of one directory and those above it. -/
def FileTree.dirs : List α → FileTree α β
  | [] => .empty
  | name :: above => (FileTree.dirs above).put (name :: above) .dir

theorem FileTree.suffix_of_lookup_dirs (h : (FileTree.dirs (β := β) node).lookup x = some e) :
    x <:+ node := by
  induction node with
  | nil =>
    cases x with
    | nil => exact List.suffix_rfl
    | cons name above =>
      have hn : (FileTree.empty (α := α) (β := β)).lookup (name :: above) = none :=
        FileTree.lookup_root_cons
      cases hn.symm.trans h
  | cons name above ih =>
    by_cases hx : x = name :: above
    · rw [hx]
    · rw [FileTree.dirs, FileTree.lookup_put_ne hx] at h
      exact (ih h).trans (List.suffix_cons name above)

theorem FileTree.lookup_dirs_cons {name : α} :
    (FileTree.dirs (β := β) node).lookup (name :: node) = none := by
  by_contra h
  obtain ⟨e, he⟩ := Option.ne_none_iff_exists'.1 h
  have hlen := (FileTree.suffix_of_lookup_dirs he).length_le
  rw [List.length_cons] at hlen
  omega

theorem FileTree.lookup_dirs : (FileTree.dirs (β := β) node).lookup node = some .dir := by
  induction node with
  | nil => exact Finmap.lookup_singleton_eq
  | cons name above ih =>
    apply FileTree.lookup_put_self
    refine ⟨?_, ih⟩
    rw [FileTree.lookup_dirs_cons]
    intro h
    cases h

theorem FileTree.put_put (h : t.HasRoom node) {new : Entry β} :
    (t.put node (.file data)).put node new = t.put node new := by
  apply FileTree.ext_lookup
  intro x
  have hr : (t.put node (.file data)).HasRoom node :=
    FileTree.hasRoom_of_file (FileTree.lookup_put_self h)
  rw [FileTree.lookup_put hr, FileTree.lookup_put h, FileTree.lookup_put h]
  split
  · rfl
  · rfl

theorem FileTree.put_of_lookup (h : t.lookup node = some (.file data)) :
    t.put node (.file data) = t := by
  apply FileTree.ext_lookup
  intro x
  rw [FileTree.lookup_put (FileTree.hasRoom_of_file h)]
  split
  · rename_i hx
    rw [hx, h]
  · rfl

end

end FileTrees
