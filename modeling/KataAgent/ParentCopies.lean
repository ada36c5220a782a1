import Mathlib.Data.List.DropRight
import KataAgent.CgroupFiles

namespace KataAgent
open Fallible
set_option autoImplicit true

/-- Where the paths of files lead: to a file that a directory has or can get, or to an error.
Several paths may lead to one file. -/
structure FilePaths (F : Type) where
  locate : Chars → Option F
  unlocated : Chars → String

/-- The files that are there, with their text. -/
abbrev Contents (F : Type) := F → Option Chars

section
variable {F : Type} [DecidableEq F]

def filePath (dir file : Chars) : Chars := dir ++ '/' :: file

def FilePaths.readFile (t : FilePaths F) (s : Contents F) (dir file : Chars) :
    Outcome ErrorKind Chars :=
  match t.locate (filePath dir file) with
  | none => .err (.io (t.unlocated (filePath dir file)))
  | some f => .ofOption (.io notFound) (s f)

def FilePaths.writeFile (t : FilePaths F) (dir file v : Chars) (s : Contents F) :
    Outcome ErrorKind Unit × Contents F :=
  match t.locate (filePath dir file) with
  | none => (.err (.io (t.unlocated (filePath dir file))), s)
  | some f => (.ok (), Function.update s f (some v))

/-- What is before the last slash. -/
def parentOf (dir : Chars) : Option Chars :=
  if '/' ∈ dir then some (dir.rdropWhile (· ≠ '/')).dropLast else none

/-- `copy_parent` with a bound on the depth of its calls. -/
def copyParent (t : FilePaths F) (file : Chars) :
    Nat → Chars → Contents F → Option (Outcome ErrorKind Unit × Contents F)
  | 0, _, _ => none
  | fuel + 1, dir, s =>
    match parentOf dir with
    | none => some (.err (.errorCode "cannot copy file from parent"), s)
    | some parent =>
      match t.readFile s parent file with
      | .ok v =>
        if trim v ≠ [] then some (t.writeFile dir file v s)
        else
          match copyParent t file fuel parent s with
          | some (.ok (), s') => copyParent t file fuel dir s'
          | r => r
      | .err (.io e) =>
        if e = notFound then
          match copyParent t file fuel parent s with
          | some (.ok (), s') => copyParent t file fuel dir s'
          | r => r
        else some (.err (.io e), s)
      | r => some (r >>= fun _ => .ok (), s)

theorem parentOf_length {dir parent : Chars} (h : parentOf dir = some parent) :
    parent.length < dir.length := by
  obtain ⟨hs, he⟩ := Option.ite_none_right_eq_some.1 h
  cases he
  have hle := (List.rdropWhile_prefix (p := fun c => decide (c ≠ '/')) dir).length_le
  have hpos := List.length_pos_of_mem hs
  rw [List.length_dropLast]
  omega

/-- What is left of a text when what is behind its last slash is cut off, again and again. -/
def shortened (dir : Chars) : List Chars :=
  match h : parentOf dir with
  | none => []
  | some parent =>
    have := parentOf_length h
    parent :: shortened parent
termination_by dir.length

/-- A write that hands the value on. -/
def FilePaths.store (t : FilePaths F) (file dir v : Chars) (s : Contents F) :
    Outcome ErrorKind Chars × Contents F :=
  ((t.writeFile dir file v s).1 >>= fun _ => .ok v, (t.writeFile dir file v s).2)

/-- A value that was found above goes one directory further down. -/
def FilePaths.pass (t : FilePaths F) (file dir : Chars)
    (found : Outcome ErrorKind Chars × Contents F) : Outcome ErrorKind Chars × Contents F :=
  match found with
  | (.ok v, s) => t.store file dir v s
  | (r, s) => (r, s)

/-- What the calls of `copy_parent` come to: the value of the first of the shorter texts that has one
goes down to the directory. -/
def FilePaths.fetch (t : FilePaths F) (file : Chars) :
    Chars → List Chars → Contents F → Outcome ErrorKind Chars × Contents F
  | _, [], s => (.err (.errorCode "cannot copy file from parent"), s)
  | dir, parent :: above, s =>
    match t.readFile s parent file with
    | .ok v =>
      if trim v ≠ [] then t.store file dir v s
      else t.pass file dir (t.fetch file parent above s)
    | .err (.io e) =>
      if e = notFound then t.pass file dir (t.fetch file parent above s) else (.err (.io e), s)
    | r => (r, s)

/-- The directory has a value: the file is there and not blank. -/
def FilePaths.Valued (t : FilePaths F) (s : Contents F) (file dir : Chars) : Prop :=
  ∃ v, t.readFile s dir file = .ok v ∧ trim v ≠ []

variable {t : FilePaths F} {s s' : Contents F} {f : F} {file dir parent v w : Chars}
variable {above between : List Chars}

theorem shortened_nil (h : shortened dir = []) : parentOf dir = none := by
  rw [shortened] at h
  split at h
  · assumption
  · cases h

theorem shortened_cons (h : shortened dir = parent :: above) :
    parentOf dir = some parent ∧ shortened parent = above := by
  rw [shortened] at h
  split at h
  · cases h
  · rename_i hp
    cases h
    exact ⟨hp, rfl⟩

omit [DecidableEq F] in
theorem readFile_cases (t : FilePaths F) (s : Contents F) (dir file : Chars) :
    (∃ v, t.readFile s dir file = .ok v) ∨ ∃ e, t.readFile s dir file = .err (.io e) := by
  rw [FilePaths.readFile]
  cases t.locate (filePath dir file) with
  | none => exact .inr ⟨_, rfl⟩
  | some f =>
    dsimp only
    cases s f with
    | none => exact .inr ⟨_, rfl⟩
    | some v => exact .inl ⟨v, rfl⟩

omit [DecidableEq F] in
theorem readFile_of_locate (hf : t.locate (filePath dir file) = some f) :
    t.readFile s dir file = .ofOption (.io notFound) (s f) := by
  rw [FilePaths.readFile, hf]

theorem writeFile_of_locate (hf : t.locate (filePath dir file) = some f) :
    t.writeFile dir file v s = (.ok (), Function.update s f (some v)) := by
  rw [FilePaths.writeFile, hf]

theorem store_of_locate (hf : t.locate (filePath dir file) = some f) :
    t.store file dir v s = (.ok v, Function.update s f (some v)) := by
  rw [FilePaths.store, writeFile_of_locate hf]
  rfl

theorem store_of_none (hf : t.locate (filePath dir file) = none) :
    t.store file dir v s = (.err (.io (t.unlocated (filePath dir file))), s) := by
  rw [FilePaths.store, FilePaths.writeFile, hf]
  rfl

theorem readFile_update_self (hf : t.locate (filePath dir file) = some f) :
    t.readFile (Function.update s f (some v)) dir file = .ok v := by
  rw [readFile_of_locate hf, Function.update_self]
  rfl

theorem store_eq_ok (h : t.store file dir v s = (.ok w, s')) :
    w = v ∧ t.readFile s' dir file = .ok v := by
  cases hf : t.locate (filePath dir file) with
  | none =>
    rw [store_of_none hf] at h
    cases h
  | some f =>
    rw [store_of_locate hf] at h
    cases h
    exact ⟨rfl, readFile_update_self hf⟩

theorem pass_eq_ok {found : Outcome ErrorKind Chars × Contents F}
    (h : t.pass file dir found = (.ok v, s')) :
    found.1 = .ok v ∧ t.readFile s' dir file = .ok v := by
  obtain ⟨r, u⟩ := found
  cases r with
  | ok w =>
    obtain ⟨rfl, hr⟩ := store_eq_ok h
    exact ⟨rfl, hr⟩
  | err e => cases h
  | panic => cases h

/-- What comes down is a value, and it can be read again. -/
theorem fetch_eq_ok (h : t.fetch file dir above s = (.ok v, s')) :
    trim v ≠ [] ∧ t.readFile s' dir file = .ok v := by
  induction above generalizing dir v s' with
  | nil => cases h
  | cons parent above ih =>
    have hpass (hp : t.pass file dir (t.fetch file parent above s) = (.ok v, s')) :
        trim v ≠ [] ∧ t.readFile s' dir file = .ok v := by
      obtain ⟨hf, hr⟩ := pass_eq_ok hp
      have hv : t.fetch file parent above s = (.ok v, (t.fetch file parent above s).2) :=
        Prod.ext hf rfl
      exact ⟨(ih hv).1, hr⟩
    rw [FilePaths.fetch] at h
    split at h
    · split at h
      · rename_i hw
        obtain ⟨rfl, hr⟩ := store_eq_ok h
        exact ⟨hw, hr⟩
      · exact hpass h
    · split at h
      · exact hpass h
      · cases h
    · rename_i hok _
      exact (hok v (Prod.ext_iff.1 h).1).elim

theorem writeFile_eq_store : t.writeFile dir file v s =
    ((t.store file dir v s).1 >>= fun _ => .ok (), (t.store file dir v s).2) := by
  cases hf : t.locate (filePath dir file) with
  | none =>
    rw [store_of_none hf, FilePaths.writeFile, hf]
    rfl
  | some f =>
    rw [store_of_locate hf, writeFile_of_locate hf]
    rfl

/-- Where the parent has a value, the function writes it to the directory. -/
theorem copyParent_of_valued {fuel : Nat} (hp : parentOf dir = some parent)
    (hread : t.readFile s parent file = .ok v) (hv : trim v ≠ []) :
    copyParent t file (fuel + 1) dir s =
      some ((t.store file dir v s).1 >>= fun _ => .ok (), (t.store file dir v s).2) := by
  rw [copyParent, hp]
  dsimp only
  rw [hread]
  dsimp only
  rw [if_pos hv, writeFile_eq_store]

/-- The second call for a directory finds what the first one left in its parent. -/
theorem copyParent_retry {fuel : Nat} (hp : parentOf dir = some parent)
    (ih : copyParent t file (fuel + 1) parent s =
      some ((t.fetch file parent above s).1 >>= fun _ => .ok (), (t.fetch file parent above s).2)) :
    (match copyParent t file (fuel + 1) parent s with
      | some (.ok (), s') => copyParent t file (fuel + 1) dir s'
      | r => r) =
      some ((t.pass file dir (t.fetch file parent above s)).1 >>= fun _ => .ok (),
        (t.pass file dir (t.fetch file parent above s)).2) := by
  rw [ih]
  rcases hr : t.fetch file parent above s with ⟨r, s'⟩
  cases r with
  | ok v =>
    obtain ⟨hv, hread⟩ := fetch_eq_ok hr
    exact copyParent_of_valued hp hread hv
  | err e => rfl
  | panic => rfl

/-- The function refines its purpose, with fuel for a call in every directory above. -/
theorem copyParent_eq {fuel : Nat} (ha : shortened dir = above) (hf : above.length < fuel) :
    copyParent t file fuel dir s =
      some ((t.fetch file dir above s).1 >>= fun _ => .ok (), (t.fetch file dir above s).2) := by
  induction above generalizing dir s fuel with
  | nil =>
    cases fuel with
    | zero => cases hf
    | succ fuel =>
      rw [copyParent, shortened_nil ha]
      rfl
  | cons parent above ih =>
    obtain ⟨hp, ha⟩ := shortened_cons ha
    obtain ⟨fuel, rfl⟩ : ∃ n, fuel = n + 2 := by
      rw [List.length_cons] at hf
      exact Nat.exists_eq_add_of_le' (by omega)
    have hfuel : above.length < fuel + 1 := Nat.lt_of_succ_lt_succ hf
    rw [FilePaths.fetch]
    rcases readFile_cases t s parent file with ⟨v, hread⟩ | ⟨e, hread⟩
    · rw [hread]
      dsimp only
      by_cases hv : trim v ≠ []
      · rw [if_pos hv]
        exact copyParent_of_valued hp hread hv
      · rw [if_neg hv, copyParent, hp]
        dsimp only
        rw [hread]
        dsimp only
        rw [if_neg hv]
        exact copyParent_retry hp (ih ha hfuel)
    · rw [hread, copyParent, hp]
      dsimp only
      rw [hread]
      dsimp only
      by_cases hn : e = notFound
      · rw [if_pos hn, if_pos hn]
        exact copyParent_retry hp (ih ha hfuel)
      · rw [if_neg hn, if_neg hn]
        rfl

omit [DecidableEq F] in
theorem readFile_blank (hf : t.locate (filePath dir file) = some f)
    (hv : ¬ t.Valued s file dir) : (∃ v, t.readFile s dir file = .ok v ∧ trim v = []) ∨
      t.readFile s dir file = .err (.io notFound) := by
  rw [readFile_of_locate hf]
  cases hs : s f with
  | none => exact .inr rfl
  | some v =>
    refine .inl ⟨v, rfl, ?_⟩
    by_contra hne
    apply hv
    refine ⟨v, ?_, hne⟩
    rw [readFile_of_locate hf, hs]
    rfl

/-- From a directory whose parent has no value, the search goes on above. -/
theorem fetch_of_blank (hf : t.locate (filePath parent file) = some f)
    (hv : ¬ t.Valued s file parent) :
    t.fetch file dir (parent :: above) s = t.pass file dir (t.fetch file parent above s) := by
  rw [FilePaths.fetch]
  rcases readFile_blank hf hv with ⟨w, hw, hblank⟩ | hnone
  · rw [hw]
    dsimp only
    rw [if_neg (not_not.2 hblank)]
  · rw [hnone]
    dsimp only
    rw [if_pos rfl]

/-- A second write of a value leaves it where it is already, also where two paths are one file. -/
theorem readFile_update {p : Chars} {fp : F} (hp : t.locate (filePath p file) = some fp)
    (hread : t.readFile s p file = .ok v) :
    t.readFile (Function.update s f (some v)) p file = .ok v := by
  by_cases he : fp = f
  · rw [he] at hp
    exact readFile_update_self hp
  · rw [readFile_of_locate hp] at hread ⊢
    rw [Function.update_of_ne he]
    exact hread

/-- The value of the first text above that has one comes down to every text before it. -/
theorem fetch_nearest (above : List Chars) (hv : t.readFile s parent file = .ok v)
    (hne : trim v ≠ []) (hb : ∀ p ∈ between, ¬ t.Valued s file p)
    (hd : ∀ p ∈ dir :: between, ∃ f, t.locate (filePath p file) = some f) :
    ∃ s', t.fetch file dir (between ++ parent :: above) s = (.ok v, s') ∧
      (∀ p ∈ dir :: between, t.readFile s' p file = .ok v) ∧
      ∀ f, (∀ p ∈ dir :: between, t.locate (filePath p file) ≠ some f) → s' f = s f := by
  induction between generalizing dir with
  | nil =>
    obtain ⟨f, hf⟩ := hd dir List.mem_cons_self
    refine ⟨Function.update s f (some v), ?_, ?_, ?_⟩
    · rw [List.nil_append, FilePaths.fetch, hv]
      dsimp only
      rw [if_pos hne, store_of_locate hf]
    · intro p hp
      rw [List.mem_singleton.1 hp]
      exact readFile_update_self hf
    · intro f' hf'
      apply Function.update_of_ne
      intro he
      exact hf' dir List.mem_cons_self (he ▸ hf)
  | cons p between ih =>
    obtain ⟨hp, hb⟩ := List.forall_mem_cons.1 hb
    obtain ⟨⟨f, hf⟩, hd⟩ := List.forall_mem_cons.1 hd
    obtain ⟨fp, hfp⟩ := hd p List.mem_cons_self
    obtain ⟨s', hs', hvalues, hother⟩ := ih hb hd
    refine ⟨Function.update s' f (some v), ?_, ?_, ?_⟩
    · rw [List.cons_append, fetch_of_blank hfp hp, hs']
      exact store_of_locate hf
    · intro q hq
      rcases List.mem_cons.1 hq with rfl | hq
      · exact readFile_update_self hf
      · obtain ⟨fq, hfq⟩ := hd q hq
        exact readFile_update hfq (hvalues q hq)
    · intro f' hf'
      obtain ⟨hne', hf'⟩ := List.forall_mem_cons.1 hf'
      rw [Function.update_of_ne, hother f' hf']
      intro he
      exact hne' (he ▸ hf)

/-- Without a value above, nothing changes. -/
theorem fetch_none (dir : Chars) (hb : ∀ p ∈ above, ¬ t.Valued s file p) :
    ∃ e, t.fetch file dir above s = (.err e, s) := by
  induction above generalizing dir with
  | nil => exact ⟨_, rfl⟩
  | cons p above ih =>
    obtain ⟨hp, hb⟩ := List.forall_mem_cons.1 hb
    obtain ⟨e, he⟩ := ih p hb
    have hpass : t.pass file dir (t.fetch file p above s) = (.err e, s) := by
      rw [he]
      rfl
    rw [FilePaths.fetch]
    rcases readFile_cases t s p file with ⟨v, hread⟩ | ⟨e', hread⟩
    · have hblank : ¬ trim v ≠ [] := fun hne => hp ⟨v, hread, hne⟩
      rw [hread]
      dsimp only
      rw [if_neg hblank]
      exact ⟨e, hpass⟩
    · rw [hread]
      dsimp only
      split
      · exact ⟨e, hpass⟩
      · exact ⟨_, rfl⟩

end

theorem shortened_of_some {dir parent : Chars} (h : parentOf dir = some parent) :
    shortened dir = parent :: shortened parent := by
  rw [shortened]
  split
  · rename_i hp
    cases hp.symm.trans h
  · rename_i hp
    cases hp.symm.trans h
    rfl

/-- The text is cut at its last slash. -/
theorem parentOf_eq_some {dir parent : Chars} (h : parentOf dir = some parent) :
    ∃ name, dir = parent ++ '/' :: name ∧ '/' ∉ name := by
  obtain ⟨hs, he⟩ := Option.ite_none_right_eq_some.1 h
  cases he
  have hne : dir.rdropWhile (· ≠ '/') ≠ [] := by
    intro hn
    have hall := List.rdropWhile_eq_nil_iff.1 hn '/' hs
    simp at hall
  have hlast : (dir.rdropWhile (· ≠ '/')).getLast hne = '/' := by
    simpa using List.rdropWhile_last_not (fun c => decide (c ≠ '/')) dir hne
  have hsplit := List.rdropWhile_append_rtakeWhile (p := fun c => decide (c ≠ '/')) (l := dir)
  refine ⟨dir.rtakeWhile (· ≠ '/'), ?_, ?_⟩
  · rw [← List.dropLast_append_getLast hne, hlast, List.append_assoc] at hsplit
    exact hsplit.symm
  · intro hm
    simpa using List.mem_rtakeWhile_imp hm

theorem parentOf_eq_none {dir : Chars} : parentOf dir = none ↔ '/' ∉ dir := by
  rw [parentOf]
  split
  · rename_i h
    exact iff_of_false nofun (not_not.2 h)
  · rename_i h
    exact iff_of_true rfl h

end KataAgent
