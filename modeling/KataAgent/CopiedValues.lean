import KataAgent.Directories
import KataAgent.ParentCopies

namespace KataAgent
open Fallible TreePaths
set_option autoImplicit true

/-- A directory, by its names on the way up. -/
abbrev Node := List Chars

/-- A tree of directories with the files in them. A path of a file leads through the directory that
the text in front of it names. -/
structure DirectoryTree (F : Type) where
  dirs : Directories
  paths : FilePaths F
  /-- The file that a text leads to from a directory. -/
  entry : Node → Chars → Option F
  entry_there : entry d file = some f → dirs.there d = true
  locate_eq : ∀ dir file,
    paths.locate (filePath dir file) = (dirs.named dir).bind fun d => entry d file

section
variable {F : Type} [DecidableEq F]

/-- A write to the file of a directory that is there succeeds. -/
def DirectoryTree.Writable (t : DirectoryTree F) (file : Chars) : Prop :=
  ∀ d, t.dirs.there d = true → ∃ f, t.entry d file = some f

def DirectoryTree.content (t : DirectoryTree F) (s : Contents F) (file : Chars) (d : Node) :
    Option Chars :=
  (t.entry d file).bind s

/-- The text of the file, when it is not blank. -/
def DirectoryTree.value (t : DirectoryTree F) (s : Contents F) (file : Chars) (d : Node) :
    Option Chars :=
  (t.content s file d).filter fun v => trim v ≠ []

/-- The files of the directories hold the text, and all other files are what they were. -/
def DirectoryTree.Filled (t : DirectoryTree F) (file : Chars) (ds : List Node) (v : Chars)
    (s s' : Contents F) : Prop :=
  (∀ d ∈ ds, t.content s' file d = some v) ∧
    ∀ f, (∀ d ∈ ds, t.entry d file ≠ some f) → s' f = s f

/-- What `copy_parent` is for: the value of the nearest proper ancestor that has one comes down to
the directory; without one, nothing changes and the call fails. -/
def DirectoryTree.Copied (t : DirectoryTree F) (s : Contents F) (dir file : Chars)
    (r : Outcome ErrorKind Unit) (s' : Contents F) : Prop :=
  (∀ between ancestor above v,
      properAncestors (t.dirs.place dir) = between ++ ancestor :: above →
      (∀ d ∈ between, t.value s file d = none) → t.value s file ancestor = some v →
      t.dirs.named dir ≠ none →
        r = .ok () ∧ t.Filled file (t.dirs.place dir :: between) v s s') ∧
    ((∀ d ∈ properAncestors (t.dirs.place dir), t.value s file d = none) →
      (∃ e, r = .err e) ∧ s' = s)

/-- The directories in front of the first one with a value, and the value. -/
def DirectoryTree.nearest (t : DirectoryTree F) (s : Contents F) (file : Chars) :
    List Node → Option (List Node × Chars)
  | [] => none
  | d :: ds =>
    match t.value s file d with
    | some v => some ([], v)
    | none => (t.nearest s file ds).map fun found => (d :: found.1, found.2)

/-- The directories that the shorter texts name. -/
def DirectoryTree.searched (t : DirectoryTree F) (dir : Chars) : List Node :=
  (shortened dir).filterMap t.dirs.named

/-- Two searches for a directory find one value, in front of which are the same files. -/
def DirectoryTree.Agree (t : DirectoryTree F) (file : Chars) (d : Node) :
    Option (List Node × Chars) → Option (List Node × Chars) → Prop
  | none, none => True
  | some (ds, v), some (ds', v') => v = v' ∧ ∀ f,
      (∃ p ∈ d :: ds, t.entry p file = some f) ↔ ∃ p ∈ d :: ds', t.entry p file = some f
  | _, _ => False

/-- The search through the shorter texts comes to what the proper ancestors have. From a text that
names no directory, it either fails at such a text, or has its answer at the first directory. -/
def DirectoryTree.SearchesAncestors (t : DirectoryTree F) (s : Contents F) (dir file : Chars) :
    Prop :=
  match t.dirs.named dir with
  | some d =>
    t.Agree file d (t.nearest s file (t.searched dir)) (t.nearest s file (properAncestors d))
  | none =>
    (∃ d ∈ properAncestors (t.dirs.place dir), t.value s file d ≠ none) ∨
    (∃ p ∈ shortened dir,
      t.dirs.named p = none ∧ t.paths.unlocated (filePath p file) ≠ notFound) ∨
    ∀ d ds, t.searched dir = d :: ds →
      t.value s file d ≠ none ∨ ∀ d' ∈ ds, t.value s file d' = none

variable {t : DirectoryTree F} {s s' : Contents F} {d : Node} {ds ds' : List Node} {f : F}
variable {dir file p v : Chars}

omit [DecidableEq F] in
theorem DirectoryTree.value_eq_some :
    t.value s file d = some v ↔ t.content s file d = some v ∧ trim v ≠ [] := by
  rw [DirectoryTree.value, Option.filter_eq_some_iff, decide_eq_true_iff]

omit [DecidableEq F] in
theorem DirectoryTree.locate_of_named (hd : t.dirs.named p = some d) :
    t.paths.locate (filePath p file) = t.entry d file := by
  rw [t.locate_eq, hd]
  rfl

omit [DecidableEq F] in
theorem DirectoryTree.locate_of_unnamed (hd : t.dirs.named p = none) :
    t.paths.locate (filePath p file) = none := by
  rw [t.locate_eq, hd]
  rfl

omit [DecidableEq F] in
theorem DirectoryTree.readFile_eq_ok (hd : t.dirs.named p = some d) :
    t.paths.readFile s p file = .ok v ↔ t.content s file d = some v := by
  rw [FilePaths.readFile, DirectoryTree.locate_of_named hd, DirectoryTree.content]
  cases t.entry d file with
  | none => exact iff_of_false (fun h => by cases h) fun h => by cases h
  | some f => exact Outcome.ofOption_eq_ok

omit [DecidableEq F] in
theorem DirectoryTree.valued_iff (hd : t.dirs.named p = some d) :
    t.paths.Valued s file p ↔ t.value s file d ≠ none := by
  rw [Option.ne_none_iff_exists']
  apply exists_congr
  intro v
  rw [DirectoryTree.readFile_eq_ok hd, DirectoryTree.value_eq_some]

omit [DecidableEq F] in
theorem DirectoryTree.nearest_eq_some (h : t.nearest s file ds = some (ds', v)) :
    ∃ a above, ds = ds' ++ a :: above ∧ (∀ d ∈ ds', t.value s file d = none) ∧
      t.value s file a = some v := by
  induction ds generalizing ds' with
  | nil => cases h
  | cons d ds ih =>
    rw [DirectoryTree.nearest] at h
    cases hv : t.value s file d with
    | some w =>
      rw [hv] at h
      cases h
      exact ⟨d, ds, rfl, nofun, hv⟩
    | none =>
      rw [hv] at h
      obtain ⟨⟨x, w⟩, hx, he⟩ := Option.map_eq_some_iff.1 h
      cases he
      obtain ⟨a, above, rfl, hb, ha⟩ := ih hx
      exact ⟨a, above, rfl, List.forall_mem_cons.2 ⟨hv, hb⟩, ha⟩

omit [DecidableEq F] in
theorem DirectoryTree.nearest_append {a : Node} {above : List Node}
    (hb : ∀ d ∈ ds, t.value s file d = none) (ha : t.value s file a = some v) :
    t.nearest s file (ds ++ a :: above) = some (ds, v) := by
  induction ds with
  | nil => rw [List.nil_append, DirectoryTree.nearest, ha]
  | cons d ds ih =>
    obtain ⟨hd, hb⟩ := List.forall_mem_cons.1 hb
    rw [List.cons_append, DirectoryTree.nearest, hd, ih hb]
    rfl

omit [DecidableEq F] in
theorem DirectoryTree.nearest_eq_none :
    t.nearest s file ds = none ↔ ∀ d ∈ ds, t.value s file d = none := by
  induction ds with
  | nil => exact iff_of_true rfl nofun
  | cons d ds ih =>
    rw [DirectoryTree.nearest, List.forall_mem_cons]
    cases t.value s file d with
    | some w => exact iff_of_false nofun fun h => nomatch h.1
    | none => rw [Option.map_eq_none_iff, ih, and_iff_right rfl]

omit [DecidableEq F] in
theorem DirectoryTree.nearest_of_blank (hd : t.value s file d = none) :
    t.nearest s file (d :: ds) =
      (t.nearest s file ds).map fun found => (d :: found.1, found.2) := by
  rw [DirectoryTree.nearest, hd]

omit [DecidableEq F] in
/-- The property in terms of the search of the proper ancestors. -/
theorem DirectoryTree.copied_iff {r : Outcome ErrorKind Unit} : t.Copied s dir file r s' ↔
    (∀ ds v, t.nearest s file (properAncestors (t.dirs.place dir)) = some (ds, v) →
      t.dirs.named dir ≠ none → r = .ok () ∧ t.Filled file (t.dirs.place dir :: ds) v s s') ∧
    (t.nearest s file (properAncestors (t.dirs.place dir)) = none →
      (∃ e, r = .err e) ∧ s' = s) := by
  rw [DirectoryTree.nearest_eq_none, DirectoryTree.Copied]
  apply and_congr_left
  intro _
  constructor
  · intro h ds v hn
    obtain ⟨a, above, ha, hb, hv⟩ := DirectoryTree.nearest_eq_some hn
    exact h ds a above v ha hb hv
  · intro h between a above v ha hb hv
    apply h between v
    rw [ha]
    exact DirectoryTree.nearest_append hb hv

omit [DecidableEq F] in
/-- A directory without a value has another content once it is filled. -/
theorem DirectoryTree.Filled.covers (h : t.Filled file ds v s s') (hd : t.value s file d = none)
    (hv : trim v ≠ []) (hs : t.content s' file d = some v) (hf : t.entry d file = some f) :
    ∃ p ∈ ds, t.entry p file = some f := by
  by_contra hno
  have hsame : s' f = s f := h.2 f fun p hp he => hno ⟨p, hp, he⟩
  have hcontent : t.content s file d = some v := by
    rw [DirectoryTree.content, hf] at hs ⊢
    exact hsame.symm.trans hs
  rw [DirectoryTree.value_eq_some.2 ⟨hcontent, hv⟩] at hd
  cases hd

omit [DecidableEq F] in
theorem DirectoryTree.Filled.congr (h : t.Filled file ds v s s')
    (he : ∀ f, (∃ p ∈ ds, t.entry p file = some f) ↔ ∃ p ∈ ds', t.entry p file = some f)
    (hw : ∀ d ∈ ds', ∃ f, t.entry d file = some f) : t.Filled file ds' v s s' := by
  constructor
  · intro d hd
    obtain ⟨f, hf⟩ := hw d hd
    obtain ⟨p, hp, hpf⟩ := (he f).2 ⟨d, hd, hf⟩
    have hs := h.1 p hp
    rw [DirectoryTree.content, hpf] at hs
    rw [DirectoryTree.content, hf, hs]
  · intro f hf
    apply h.2
    intro p hp hpf
    obtain ⟨q, hq, hqf⟩ := (he f).1 ⟨p, hp, hpf⟩
    exact hf q hq hqf

omit [DecidableEq F] in
/-- Of a state that one search filled, another search is right exactly when they agree. -/
theorem DirectoryTree.Filled.agree_iff {v' : Chars} (h : t.Filled file (d :: ds) v s s')
    (hv : trim v ≠ []) (hv' : trim v' ≠ []) (hds : ∀ p ∈ ds, t.value s file p = none)
    (hds' : ∀ p ∈ ds', t.value s file p = none)
    (hw : ∀ p ∈ d :: ds', ∃ f, t.entry p file = some f) :
    t.Filled file (d :: ds') v' s s' ↔ t.Agree file d (some (ds, v)) (some (ds', v')) := by
  constructor
  · intro h'
    have he : v = v' :=
      Option.some_inj.1 ((h.1 d List.mem_cons_self).symm.trans (h'.1 d List.mem_cons_self))
    cases he
    refine ⟨rfl, fun f => ⟨?_, ?_⟩⟩
    · rintro ⟨p, hp, hpf⟩
      rcases List.mem_cons.1 hp with rfl | hm
      · exact ⟨p, List.mem_cons_self, hpf⟩
      · exact h'.covers (hds p hm) hv (h.1 p hp) hpf
    · rintro ⟨p, hp, hpf⟩
      rcases List.mem_cons.1 hp with rfl | hm
      · exact ⟨p, List.mem_cons_self, hpf⟩
      · exact h.covers (hds' p hm) hv (h'.1 p hp) hpf
  · rintro ⟨rfl, he⟩
    exact h.congr he hw

omit [DecidableEq F] in
theorem DirectoryTree.named_of_parentOf (hp : parentOf dir = some p)
    (hd : t.dirs.named dir ≠ none) : t.dirs.named p ≠ none := by
  obtain ⟨name, rfl, -⟩ := parentOf_eq_some hp
  intro hn
  rw [t.dirs.named_append_slash, hn] at hd
  exact hd rfl

omit [DecidableEq F] in
/-- Every shorter text of one that names a directory names one. -/
theorem DirectoryTree.named_shortened (hd : t.dirs.named dir ≠ none) :
    ∀ p ∈ shortened dir, t.dirs.named p ≠ none := by
  induction h : shortened dir generalizing dir with
  | nil => exact nofun
  | cons parent above ih =>
    obtain ⟨hp, ha⟩ := shortened_cons h
    have hn := DirectoryTree.named_of_parentOf hp hd
    exact List.forall_mem_cons.2 ⟨hn, ih hn ha⟩

/-- The calls from a directory, when every text above names one. -/
theorem DirectoryTree.fetch_named {above : List Chars} (hw : t.Writable file)
    (hd : t.dirs.named dir = some d) (hall : ∀ p ∈ above, t.dirs.named p ≠ none) :
    (t.nearest s file (above.filterMap t.dirs.named) = none →
      ∃ e, t.paths.fetch file dir above s = (.err e, s)) ∧
    ∀ ds v, t.nearest s file (above.filterMap t.dirs.named) = some (ds, v) →
      ∃ s', t.paths.fetch file dir above s = (.ok v, s') ∧ t.Filled file (d :: ds) v s s' := by
  constructor
  · intro hn
    apply fetch_none
    intro p hp hv
    obtain ⟨dp, hdp⟩ := Option.ne_none_iff_exists'.1 (hall p hp)
    exact (DirectoryTree.valued_iff hdp).1 hv
      (DirectoryTree.nearest_eq_none.1 hn dp (List.mem_filterMap.2 ⟨p, hp, hdp⟩))
  · intro ds v hn
    obtain ⟨a, as, hl, hb, ha⟩ := DirectoryTree.nearest_eq_some hn
    obtain ⟨between, l, rfl, rfl, hcons⟩ := List.filterMap_eq_append_iff.1 hl
    obtain ⟨unnamed, parent, rest, rfl, hun, hparent, -⟩ := List.filterMap_eq_cons_iff.1 hcons
    have hnil : unnamed = [] := by
      rw [List.eq_nil_iff_forall_not_mem]
      intro p hp
      exact hall p (by simp [hp]) (hun p hp)
    rw [hnil, List.nil_append] at hall ⊢
    obtain ⟨hv, hne⟩ := DirectoryTree.value_eq_some.1 ha
    have hnamed : ∀ p ∈ dir :: between, ∃ dp ∈ d :: between.filterMap t.dirs.named,
        t.dirs.named p = some dp := by
      intro p hp
      rcases List.mem_cons.1 hp with rfl | hp
      · exact ⟨d, List.mem_cons_self, hd⟩
      · obtain ⟨dp, hdp⟩ := Option.ne_none_iff_exists'.1 (hall p (List.mem_append_left _ hp))
        exact ⟨dp, List.mem_cons_of_mem _ (List.mem_filterMap.2 ⟨p, hp, hdp⟩), hdp⟩
    have hblank : ∀ p ∈ between, ¬ t.paths.Valued s file p := by
      intro p hp hval
      obtain ⟨dp, hdp⟩ := Option.ne_none_iff_exists'.1 (hall p (List.mem_append_left _ hp))
      exact (DirectoryTree.valued_iff hdp).1 hval (hb dp (List.mem_filterMap.2 ⟨p, hp, hdp⟩))
    have hlocated : ∀ p ∈ dir :: between, ∃ f, t.paths.locate (filePath p file) = some f := by
      intro p hp
      obtain ⟨dp, -, hdp⟩ := hnamed p hp
      rw [DirectoryTree.locate_of_named hdp]
      exact hw dp (t.dirs.there_of_named hdp)
    obtain ⟨s', hs', hvalues, hother⟩ := fetch_nearest rest
      ((DirectoryTree.readFile_eq_ok hparent).2 hv) hne hblank hlocated
    refine ⟨s', hs', ?_, ?_⟩
    · intro dp hdp
      rcases List.mem_cons.1 hdp with rfl | hdp
      · exact (DirectoryTree.readFile_eq_ok hd).1 (hvalues dir List.mem_cons_self)
      · obtain ⟨p, hp, hdp⟩ := List.mem_filterMap.1 hdp
        exact (DirectoryTree.readFile_eq_ok hdp).1 (hvalues p (List.mem_cons_of_mem _ hp))
    · intro f hf
      apply hother f
      intro p hp
      obtain ⟨dp, hmem, hdp⟩ := hnamed p hp
      rw [DirectoryTree.locate_of_named hdp]
      exact hf dp hmem

theorem DirectoryTree.pass_unnamed {found : Outcome ErrorKind Chars × Contents F}
    (hd : t.dirs.named dir = none) : (t.paths.pass file dir found).2 = found.2 := by
  obtain ⟨r, u⟩ := found
  cases r with
  | ok v =>
    have h : t.paths.store file dir v u = _ := store_of_none (DirectoryTree.locate_of_unnamed hd)
    rw [FilePaths.pass, h]
  | err e => rfl
  | panic => rfl

theorem fetch_ne_panic {t : FilePaths F} (above : List Chars) (dir : Chars) :
    (t.fetch file dir above s).1 ≠ .panic := by
  have hstore (dir v : Chars) (u : Contents F) : (t.store file dir v u).1 ≠ .panic := by
    intro h
    cases hf : t.locate (filePath dir file) with
    | none =>
      rw [store_of_none hf] at h
      cases h
    | some f =>
      rw [store_of_locate hf] at h
      cases h
  induction above generalizing dir with
  | nil =>
    intro h
    cases h
  | cons p above ih =>
    have hpass : (t.pass file dir (t.fetch file p above s)).1 ≠ .panic := by
      have hp := ih p
      rcases hr : t.fetch file p above s with ⟨r, u⟩
      rw [hr] at hp
      cases r with
      | ok v => exact hstore dir v u
      | err e => exact fun h => by cases h
      | panic => exact absurd rfl hp
    rw [FilePaths.fetch]
    rcases readFile_cases t s p file with ⟨v, hread⟩ | ⟨e, hread⟩
    · rw [hread]
      dsimp only
      split
      · exact hstore dir v s
      · exact hpass
    · rw [hread]
      dsimp only
      split
      · exact hpass
      · intro h
        cases h

/-- A text that names no directory gets no value. -/
theorem DirectoryTree.fetch_unnamed (hd : t.dirs.named dir = none) (above : List Chars) :
    ∃ e, (t.paths.fetch file dir above s).1 = .err e := by
  cases hr : (t.paths.fetch file dir above s).1 with
  | ok v =>
    have hok := (fetch_eq_ok (Prod.ext hr rfl : t.paths.fetch file dir above s = (.ok v, _))).2
    rw [FilePaths.readFile, DirectoryTree.locate_of_unnamed hd] at hok
    cases hok
  | err e => exact ⟨e, rfl⟩
  | panic => exact absurd hr (fetch_ne_panic above dir)

omit [DecidableEq F] in
theorem DirectoryTree.Filled.ne (h : t.Filled file ds v s s') (hd : d ∈ ds)
    (hn : t.value s file d = none) (hv : trim v ≠ []) : s' ≠ s := by
  rintro rfl
  rw [DirectoryTree.value_eq_some.2 ⟨h.1 d hd, hv⟩] at hn
  cases hn

/-- The search from such a text, once a directory comes first: nothing is written where it has a
value, or where none behind it has one. -/
theorem DirectoryTree.fetch_unchanged_named {above : List Chars} (hw : t.Writable file)
    (hd : t.dirs.named dir = none) (hp : t.dirs.named p = some d)
    (hall : ∀ q ∈ above, t.dirs.named q ≠ none) :
    (t.paths.fetch file dir (p :: above) s).2 = s ↔
      t.value s file d ≠ none ∨ ∀ d' ∈ above.filterMap t.dirs.named, t.value s file d' = none := by
  cases hv : t.value s file d with
  | some v =>
    obtain ⟨hc, hne⟩ := DirectoryTree.value_eq_some.1 hv
    rw [FilePaths.fetch, (DirectoryTree.readFile_eq_ok hp).2 hc]
    dsimp only
    rw [if_pos hne, store_of_none (DirectoryTree.locate_of_unnamed hd)]
    exact iff_of_true rfl (.inl (Option.some_ne_none v))
  | none =>
    obtain ⟨f, hf⟩ := hw d (t.dirs.there_of_named hp)
    have hblank : ¬ t.paths.Valued s file p := fun h => (DirectoryTree.valued_iff hp).1 h hv
    rw [fetch_of_blank ((DirectoryTree.locate_of_named hp).trans hf) hblank,
      DirectoryTree.pass_unnamed hd, or_iff_right (fun h => h rfl), ← DirectoryTree.nearest_eq_none]
    obtain ⟨hnone, hsome⟩ := DirectoryTree.fetch_named (s := s) hw hp hall
    cases hn : t.nearest s file (above.filterMap t.dirs.named) with
    | none =>
      obtain ⟨e, he⟩ := hnone hn
      rw [he]
      exact iff_of_true rfl rfl
    | some found =>
      obtain ⟨ds, v⟩ := found
      obtain ⟨s', hs', hfilled⟩ := hsome ds v hn
      obtain ⟨a, as, -, -, ha⟩ := DirectoryTree.nearest_eq_some hn
      rw [hs']
      exact iff_of_false (hfilled.ne List.mem_cons_self hv (DirectoryTree.value_eq_some.1 ha).2)
        (Option.some_ne_none _)

/-- What the search from such a text writes, it writes below the first directory that it comes to. -/
theorem DirectoryTree.fetch_unchanged_iff (hw : t.Writable file) (hd : t.dirs.named dir = none) :
    (t.paths.fetch file dir (shortened dir) s).2 = s ↔
      (∃ p ∈ shortened dir,
        t.dirs.named p = none ∧ t.paths.unlocated (filePath p file) ≠ notFound) ∨
      ∀ d ds, t.searched dir = d :: ds →
        t.value s file d ≠ none ∨ ∀ d' ∈ ds, t.value s file d' = none := by
  rw [DirectoryTree.searched]
  induction h : shortened dir generalizing dir with
  | nil => exact iff_of_true rfl (.inr nofun)
  | cons p above ih =>
    obtain ⟨hp, ha⟩ := shortened_cons h
    cases hdp : t.dirs.named p with
    | none =>
      have hread : t.paths.readFile s p file =
          .err (.io (t.paths.unlocated (filePath p file))) := by
        rw [FilePaths.readFile, DirectoryTree.locate_of_unnamed hdp]
      rw [FilePaths.fetch, hread, List.filterMap_cons_none hdp]
      dsimp only
      by_cases hu : t.paths.unlocated (filePath p file) = notFound
      · rw [if_pos hu, DirectoryTree.pass_unnamed hd, ih hdp ha]
        simp only [List.exists_mem_cons_iff, hu, ne_eq, not_true_eq_false, and_false, false_or]
      · rw [if_neg hu]
        exact iff_of_true rfl (.inl ⟨p, List.mem_cons_self, hdp, hu⟩)
    | some dp =>
      have hall : ∀ q ∈ above, t.dirs.named q ≠ none := by
        rw [← ha]
        exact DirectoryTree.named_shortened (by rw [hdp]; exact Option.some_ne_none dp)
      have hhard : ¬ ∃ q ∈ p :: above,
          t.dirs.named q = none ∧ t.paths.unlocated (filePath q file) ≠ notFound := by
        rintro ⟨q, hq, hn, -⟩
        rcases List.mem_cons.1 hq with rfl | hq
        · cases hdp.symm.trans hn
        · exact hall q hq hn
      rw [or_iff_right hhard, List.filterMap_cons_some hdp,
        DirectoryTree.fetch_unchanged_named hw hd hdp hall]
      constructor
      · intro h d ds he
        cases he
        exact h
      · exact fun h => h dp _ rfl

/-- Two searches find one value, behind the same directories. -/
def SameSearch : Option (List Node × Chars) → Option (List Node × Chars) → Prop
  | none, none => True
  | some (ds, v), some (ds', v') => v = v' ∧ ∀ d, d ∈ ds ↔ d ∈ ds'
  | _, _ => False

omit [DecidableEq F] in
theorem SameSearch.cons {l l' : List Node} (h : SameSearch (t.nearest s file l) (t.nearest s file l'))
    (d : Node) : SameSearch (t.nearest s file (d :: l)) (t.nearest s file (d :: l')) := by
  rw [DirectoryTree.nearest, DirectoryTree.nearest]
  cases t.value s file d with
  | some v => exact ⟨rfl, fun _ => Iff.rfl⟩
  | none =>
    cases hl : t.nearest s file l with
    | none =>
      rw [hl] at h
      cases hl' : t.nearest s file l' with
      | none => trivial
      | some y =>
        rw [hl'] at h
        exact h.elim
    | some x =>
      rw [hl] at h
      cases hl' : t.nearest s file l' with
      | none =>
        rw [hl'] at h
        exact h.elim
      | some y =>
        rw [hl'] at h
        obtain ⟨hv, hd⟩ := h
        refine ⟨hv, fun e => ?_⟩
        rw [List.mem_cons, List.mem_cons, hd e]

omit [DecidableEq F] in
/-- A directory that is searched twice in a row is searched once. -/
theorem SameSearch.twice {l l' : List Node}
    (h : SameSearch (t.nearest s file (d :: l)) (t.nearest s file l')) :
    SameSearch (t.nearest s file (d :: d :: l)) (t.nearest s file l') := by
  rw [DirectoryTree.nearest] at h ⊢
  cases hv : t.value s file d with
  | some v =>
    rw [hv] at h
    exact h
  | none =>
    rw [hv] at h
    rw [DirectoryTree.nearest, hv]
    dsimp only at h ⊢
    cases hl : t.nearest s file l with
    | none =>
      rw [hl] at h
      exact h
    | some x =>
      rw [hl] at h
      cases hl' : t.nearest s file l' with
      | none =>
        rw [hl'] at h
        exact h.elim
      | some y =>
        rw [hl'] at h
        obtain ⟨he, hd⟩ := h
        refine ⟨he, fun e => ?_⟩
        rw [← hd e]
        simp only [List.mem_cons, or_self_left]

omit [DecidableEq F] in
theorem SameSearch.agree {x y : Option (List Node × Chars)} (h : SameSearch x y) (d : Node) :
    t.Agree file d x y := by
  rcases x with _ | ⟨ds, v⟩
  · rcases y with _ | y
    · trivial
    · exact h.elim
  · rcases y with _ | ⟨ds', v'⟩
    · exact h.elim
    · obtain ⟨hv, hd⟩ := h
      refine ⟨hv, fun f => ?_⟩
      simp only [List.exists_mem_cons_iff, hd]

/-- What is behind the last slash. -/
def lastPart (dir : Chars) : Chars := dir.rtakeWhile (· ≠ '/')

theorem parentOf_append {p name : Chars} (hn : '/' ∉ name) :
    parentOf (p ++ '/' :: name) = some p ∧ lastPart (p ++ '/' :: name) = name := by
  have hall : ∀ c ∈ name, decide (c ≠ '/') = true := by
    intro c hc
    simp only [ne_eq, decide_not, Bool.not_eq_true', decide_eq_false_iff_not]
    rintro rfl
    exact hn hc
  constructor
  · have hd : (p ++ '/' :: name).rdropWhile (· ≠ '/') = p ++ ['/'] := by
      have h1 : p ++ '/' :: name = (p ++ ['/']) ++ name := by simp
      rw [h1, List.rdropWhile, List.reverse_append, List.dropWhile_append_of_pos]
      · simp
      · intro c hc
        exact hall c (List.mem_reverse.1 hc)
    rw [parentOf, if_pos (by simp), hd, List.dropLast_concat]
  · have h1 : p ++ '/' :: name = (p ++ ['/']) ++ name := by simp
    rw [lastPart, h1, List.rtakeWhile, List.reverse_append, List.takeWhile_append_of_pos]
    · simp
    · intro c hc
      exact hall c (List.mem_reverse.1 hc)

omit [DecidableEq F] in
theorem DirectoryTree.up_notMem_of_parentOf (hp : parentOf dir = some p)
    (hu : .up ∉ pathSteps dir) : .up ∉ pathSteps p := by
  obtain ⟨name, rfl, -⟩ := parentOf_eq_some hp
  rw [pathSteps_append_slash] at hu
  exact fun h => hu (List.mem_append_left _ h)

omit [DecidableEq F] in
/-- Behind the last slash there is a name, or the shorter text is the same directory. -/
theorem DirectoryTree.place_parent (hp : parentOf dir = some p) (hu : .up ∉ pathSteps dir) :
    (∃ name, component (lastPart dir) = some (.down name) ∧
      t.dirs.place dir = name :: t.dirs.place p) ∨
      component (lastPart dir) = none ∧ t.dirs.place dir = t.dirs.place p := by
  obtain ⟨name, rfl, hn⟩ := parentOf_eq_some hp
  rw [(parentOf_append hn).2, t.dirs.place_append_slash, pathSteps_of_slash_notMem hn]
  cases hc : component name with
  | none => exact .inr ⟨rfl, rfl⟩
  | some x =>
    cases x with
    | up =>
      rw [pathSteps_append_slash, pathSteps_of_slash_notMem hn, hc] at hu
      exact absurd (List.mem_append_right _ List.mem_cons_self) hu
    | down a => exact .inl ⟨a, rfl, rfl⟩

omit [DecidableEq F] in
theorem DirectoryTree.named_of_there (hu : .up ∉ pathSteps dir)
    (h : t.dirs.there (t.dirs.place dir) = true) : t.dirs.named dir = some (t.dirs.place dir) :=
  Directories.follow_of_down hu h

omit [DecidableEq F] in
/-- A text that is absolute and never leads up is searched, with its own directory in front, as the
directory's ancestors are. -/
theorem DirectoryTree.searched_same (s : Contents F) (file : Chars)
    (ha : dir = [] ∨ dir.head? = some '/') (hu : .up ∉ pathSteps dir)
    (h : t.dirs.there (t.dirs.place dir) = true) :
    SameSearch (t.nearest s file (t.dirs.place dir :: t.searched dir))
      (t.nearest s file (t.dirs.place dir).tails) := by
  rw [DirectoryTree.searched]
  induction hsh : shortened dir generalizing dir with
  | nil =>
    have hs := parentOf_eq_none.1 (shortened_nil hsh)
    have hnil : dir = [] := by
      rcases ha with ha | ha
      · exact ha
      · exact absurd (List.mem_of_head? ha) hs
    rw [hnil]
    have hplace : t.dirs.place [] = [] := rfl
    have hnone : SameSearch (t.nearest s file []) (t.nearest s file []) := trivial
    rw [hplace]
    exact hnone.cons []
  | cons p above ih =>
    obtain ⟨hp, habove⟩ := shortened_cons hsh
    have hup := DirectoryTree.up_notMem_of_parentOf hp hu
    have hap : p = [] ∨ p.head? = some '/' := by
      obtain ⟨name, rfl, -⟩ := parentOf_eq_some hp
      cases p with
      | nil => exact .inl rfl
      | cons c p =>
        rcases ha with ha | ha
        · cases ha
        · exact .inr ha
    rcases DirectoryTree.place_parent (t := t) hp hu with ⟨name, -, hplace⟩ | ⟨-, hplace⟩
    · rw [hplace] at h ⊢
      have hthere := t.dirs.there_above h
      rw [List.filterMap_cons_some (DirectoryTree.named_of_there hup hthere), List.tails_cons]
      exact (ih hap hup hthere habove).cons _
    · rw [hplace] at h ⊢
      rw [List.filterMap_cons_some (DirectoryTree.named_of_there hup h)]
      exact (ih hap hup h habove).twice

omit [DecidableEq F] in
theorem DirectoryTree.searched_above (hu : .up ∉ pathSteps dir) (hd : d ∈ t.searched dir) :
    d <:+ t.dirs.place dir ∧ t.dirs.there d = true := by
  rw [DirectoryTree.searched] at hd
  induction h : shortened dir generalizing dir with
  | nil =>
    rw [h] at hd
    cases hd
  | cons p above ih =>
    rw [h] at hd
    obtain ⟨hp, ha⟩ := shortened_cons h
    have hup := DirectoryTree.up_notMem_of_parentOf hp hu
    have hle : t.dirs.place p <:+ t.dirs.place dir := by
      rcases DirectoryTree.place_parent (t := t) hp hu with ⟨name, -, hplace⟩ | ⟨-, hplace⟩
      · rw [hplace]
        exact List.suffix_cons _ _
      · rw [hplace]
    obtain ⟨q, hq, hqd⟩ := List.mem_filterMap.1 hd
    rcases List.mem_cons.1 hq with rfl | hq
    · rw [Directories.place_of_named hqd]
      exact ⟨hle, Directories.place_of_named hqd ▸ t.dirs.there_of_named hqd⟩
    · have hmem : d ∈ (shortened p).filterMap t.dirs.named :=
        List.mem_filterMap.2 ⟨q, by rw [ha]; exact hq, hqd⟩
      obtain ⟨hs, hthere⟩ := ih hup hmem ha
      exact ⟨hs.trans hle, hthere⟩

omit [DecidableEq F] in
theorem SameSearch.agree_behind {x y : Option (List Node × Chars)}
    (h : SameSearch x (y.map fun found => (d :: found.1, found.2))) : t.Agree file d x y := by
  rcases x with _ | ⟨ds, v⟩
  · rcases y with _ | y
    · trivial
    · exact h.elim
  · rcases y with _ | ⟨ds', v'⟩
    · exact h.elim
    · obtain ⟨hv, hd⟩ := h
      refine ⟨hv, fun f => ?_⟩
      dsimp only at hd
      simp only [List.exists_mem_cons_iff, hd]
      tauto

omit [DecidableEq F] in
/-- A directory that holds a value of its own, which the search takes for that of its parent. -/
theorem DirectoryTree.agree_own (hw : t.Writable file) (hd : t.dirs.there d = true)
    (hv : t.value s file d = some v) :
    t.Agree file d (some ([], v)) (t.nearest s file (properAncestors d)) ↔
      ∃ name parent, d = name :: parent ∧ t.value s file parent = some v := by
  cases d with
  | nil => exact iff_of_false id nofun
  | cons name parent =>
    rw [properAncestors_cons, tails_eq_cons, DirectoryTree.nearest]
    constructor
    · intro h
      refine ⟨name, parent, rfl, ?_⟩
      cases hp : t.value s file parent with
      | some w =>
        rw [hp] at h
        rw [h.1]
      | none =>
        rw [hp] at h
        cases hn : t.nearest s file (properAncestors parent) with
        | none =>
          rw [hn] at h
          exact h.elim
        | some found =>
          rw [hn] at h
          obtain ⟨f, hf⟩ := hw parent (t.dirs.there_above hd)
          obtain ⟨q, hq, hqf⟩ := (h.2 f).2 ⟨parent, by simp, hf⟩
          rw [List.mem_singleton.1 hq] at hqf
          have hsame : t.value s file parent = t.value s file (name :: parent) := by
            rw [DirectoryTree.value, DirectoryTree.value, DirectoryTree.content,
              DirectoryTree.content, hf, hqf]
          rw [hp, hv] at hsame
          cases hsame
    · rintro ⟨name', parent', he, hp⟩
      cases he
      rw [hp]
      exact ⟨rfl, fun _ => Iff.rfl⟩

omit [DecidableEq F] in
/-- A text that never leads up and names no directory has a directory that is not there, which has
no value. -/
theorem DirectoryTree.searchesAncestors_unnamed (hu : .up ∉ pathSteps dir)
    (hn : t.dirs.named dir = none) : t.SearchesAncestors s dir file ∧
      t.value s file (t.dirs.place dir) = none := by
  have hgone : ¬ t.dirs.there (t.dirs.place dir) = true := by
    intro h
    cases hn.symm.trans (DirectoryTree.named_of_there hu h)
  constructor
  · rw [DirectoryTree.SearchesAncestors, hn]
    by_cases hv : ∃ d ∈ properAncestors (t.dirs.place dir), t.value s file d ≠ none
    · exact .inl hv
    · refine .inr (.inr fun d ds hs => .inr fun d' hd' => ?_)
      have hm : d' ∈ t.searched dir := by
        rw [hs]
        exact List.mem_cons_of_mem _ hd'
      obtain ⟨hsuffix, hthere⟩ := DirectoryTree.searched_above hu hm
      by_contra hne
      exact hv ⟨d', mem_properAncestors hsuffix (fun he => hgone (he ▸ hthere)), hne⟩
  · cases hv : t.value s file (t.dirs.place dir) with
    | none => rfl
    | some v =>
      obtain ⟨f, hf, -⟩ := Option.bind_eq_some_iff.1 (DirectoryTree.value_eq_some.1 hv).1
      exact absurd (t.entry_there hf) hgone

omit [DecidableEq F] in
/-- Of a text that names one, the first shorter text names the parent, or else the directory itself
once more. -/
theorem DirectoryTree.searchesAncestors_named (hw : t.Writable file) (ha : dir.head? = some '/')
    (hu : .up ∉ pathSteps dir) (hn : t.dirs.named dir = some d) :
    t.SearchesAncestors s dir file ↔ component (lastPart dir) ≠ none ∨
      ∀ v, t.value s file d = some v →
        ∃ name parent, d = name :: parent ∧ t.value s file parent = some v := by
  have hd : d = t.dirs.place dir := Directories.place_of_named hn
  have hthere : t.dirs.there (t.dirs.place dir) = true := hd ▸ t.dirs.there_of_named hn
  obtain ⟨p, hp⟩ : ∃ p, parentOf dir = some p := by
    apply Option.ne_none_iff_exists'.1
    exact fun h => parentOf_eq_none.1 h (List.mem_of_head? ha)
  have hup := DirectoryTree.up_notMem_of_parentOf hp hu
  have hap : p = [] ∨ p.head? = some '/' := by
    obtain ⟨name, rfl, -⟩ := parentOf_eq_some hp
    cases p with
    | nil => exact .inl rfl
    | cons c p => exact .inr ha
  rw [DirectoryTree.SearchesAncestors, hn, DirectoryTree.searched, shortened_of_some hp, hd]
  dsimp only
  rcases DirectoryTree.place_parent (t := t) hp hu with ⟨name, hc, hplace⟩ | ⟨hc, hplace⟩
  · rw [hplace] at hthere ⊢
    have habove := t.dirs.there_above hthere
    rw [List.filterMap_cons_some (DirectoryTree.named_of_there hup habove), properAncestors_cons]
    refine iff_of_true ?_ (.inl (by rw [hc]; exact Option.some_ne_none _))
    exact (DirectoryTree.searched_same s file hap hup habove).agree _
  · rw [hplace] at hthere ⊢
    rw [List.filterMap_cons_some (DirectoryTree.named_of_there hup hthere),
      or_iff_right (not_not.2 hc)]
    cases hv : t.value s file (t.dirs.place p) with
    | none =>
      have hsame := DirectoryTree.searched_same s file hap hup hthere
      have hown : t.nearest s file (t.dirs.place p :: properAncestors (t.dirs.place p)) =
          (t.nearest s file (properAncestors (t.dirs.place p))).map
            fun found => (t.dirs.place p :: found.1, found.2) :=
        DirectoryTree.nearest_of_blank hv
      rw [tails_eq_cons, hown] at hsame
      exact iff_of_true hsame.agree_behind nofun
    | some v =>
      rw [DirectoryTree.nearest, hv]
      refine (DirectoryTree.agree_own hw hthere hv).trans ?_
      constructor
      · intro h w hw
        rw [← Option.some_inj.1 hw]
        exact h
      · intro h
        exact h v rfl

omit [DecidableEq F] in
/-- For an absolute text that never leads up the search goes astray only where the text ends in a
slash or a dot, so that the directory itself comes first, and this has a value that its parent has
not. -/
theorem DirectoryTree.searchesAncestors_iff (hw : t.Writable file) (ha : dir.head? = some '/')
    (hu : .up ∉ pathSteps dir) :
    t.SearchesAncestors s dir file ↔ component (lastPart dir) ≠ none ∨
      ∀ v, t.value s file (t.dirs.place dir) = some v →
        ∃ name parent, t.dirs.place dir = name :: parent ∧ t.value s file parent = some v := by
  cases hn : t.dirs.named dir with
  | none =>
    have hgone : t.SearchesAncestors s dir file ∧ t.value s file (t.dirs.place dir) = none :=
      DirectoryTree.searchesAncestors_unnamed hu hn
    refine iff_of_true hgone.1 (.inr fun v hv => ?_)
    cases hgone.2.symm.trans hv
  | some d =>
    rw [← Directories.place_of_named hn]
    exact DirectoryTree.searchesAncestors_named hw ha hu hn

/-- From a text that names no directory every call fails, and the property is about what it wrote. -/
theorem DirectoryTree.copied_unnamed (hw : t.Writable file) (hn : t.dirs.named dir = none) :
    t.Copied s dir file ((t.paths.fetch file dir (shortened dir) s).1 >>= fun _ => .ok ())
      (t.paths.fetch file dir (shortened dir) s).2 ↔ t.SearchesAncestors s dir file := by
  obtain ⟨e, he⟩ : ∃ e, (t.paths.fetch file dir (shortened dir) s).1 = .err e :=
    DirectoryTree.fetch_unnamed hn _
  have hwritten := DirectoryTree.fetch_unchanged_iff (s := s) hw hn
  rw [DirectoryTree.copied_iff, DirectoryTree.SearchesAncestors, hn, he]
  constructor
  · rintro ⟨-, h⟩
    by_cases hv : t.nearest s file (properAncestors (t.dirs.place dir)) = none
    · exact .inr (hwritten.1 (h hv).2)
    · rw [DirectoryTree.nearest_eq_none] at hv
      push Not at hv
      exact .inl hv
  · intro h
    refine ⟨fun _ _ _ hne => absurd rfl hne, fun hv => ⟨⟨e, rfl⟩, ?_⟩⟩
    rcases h with ⟨d, hd, hne⟩ | h
    · exact absurd (DirectoryTree.nearest_eq_none.1 hv d hd) hne
    · exact hwritten.2 h

omit [DecidableEq F] in
/-- All that the search of the proper ancestors comes past is there. -/
theorem DirectoryTree.entry_of_nearest (hw : t.Writable file) (hd : t.dirs.there d = true)
    (hn : t.nearest s file (properAncestors d) = some (ds, v)) :
    ∀ p ∈ d :: ds, ∃ f, t.entry p file = some f := by
  obtain ⟨a, above, hl, -, -⟩ := DirectoryTree.nearest_eq_some hn
  intro p hp
  apply hw p
  apply t.dirs.there_of_suffix hd
  rcases List.mem_cons.1 hp with rfl | hp
  · exact List.suffix_rfl
  · apply (List.mem_tails _ _).1
    rw [tails_eq_cons, hl]
    exact List.mem_cons_of_mem _ (List.mem_append_left _ hp)

/-- From one that names a directory it fails or fills, as its own search finds a value or none. -/
theorem DirectoryTree.copied_named (hw : t.Writable file) (hn : t.dirs.named dir = some d) :
    t.Copied s dir file ((t.paths.fetch file dir (shortened dir) s).1 >>= fun _ => .ok ())
      (t.paths.fetch file dir (shortened dir) s).2 ↔ t.SearchesAncestors s dir file := by
  have hall : ∀ p ∈ shortened dir, t.dirs.named p ≠ none :=
    DirectoryTree.named_shortened (by rw [hn]; exact Option.some_ne_none d)
  obtain ⟨hnone, hsome⟩ := DirectoryTree.fetch_named (s := s) hw hn hall
  rw [DirectoryTree.copied_iff, DirectoryTree.SearchesAncestors, hn,
    ← Directories.place_of_named hn, DirectoryTree.searched]
  dsimp only
  cases hf : t.nearest s file ((shortened dir).filterMap t.dirs.named) with
  | none =>
    obtain ⟨e, he⟩ := hnone hf
    rw [he]
    cases ha : t.nearest s file (properAncestors d) with
    | none => exact iff_of_true ⟨nofun, fun _ => ⟨⟨e, rfl⟩, rfl⟩⟩ trivial
    | some found =>
      refine iff_of_false (fun h => ?_) id
      cases (h.1 found.1 found.2 rfl (Option.some_ne_none d)).1
  | some found =>
    obtain ⟨ds, v⟩ := found
    obtain ⟨s', hs', hfilled⟩ := hsome ds v hf
    rw [hs']
    cases ha : t.nearest s file (properAncestors d) with
    | none =>
      refine iff_of_false (fun h => ?_) id
      obtain ⟨⟨e, he⟩, -⟩ := h.2 rfl
      cases he
    | some found' =>
      obtain ⟨ds', v'⟩ := found'
      obtain ⟨a, above, -, hb, hv⟩ := DirectoryTree.nearest_eq_some hf
      obtain ⟨a', above', -, hb', hv'⟩ := DirectoryTree.nearest_eq_some ha
      rw [← hfilled.agree_iff (DirectoryTree.value_eq_some.1 hv).2
        (DirectoryTree.value_eq_some.1 hv').2 hb hb'
        (DirectoryTree.entry_of_nearest hw (t.dirs.there_of_named hn) ha)]
      constructor
      · intro h
        exact (h.1 ds' v' rfl (Option.some_ne_none d)).2
      · intro h
        refine ⟨fun ds'' v'' he _ => ?_, nofun⟩
        cases he
        exact ⟨rfl, h⟩

/-- `copy_parent` ends, and it copies the value of the nearest proper ancestor exactly where its
search, which goes by the text alone, comes to what the proper ancestors have. -/
theorem copyParent_copies_iff (t : DirectoryTree F) (s : Contents F) (dir file : Chars)
    (hw : t.Writable file) :
    ∃ r s', (∀ fuel, (shortened dir).length < fuel →
        copyParent t.paths file fuel dir s = some (r, s')) ∧
      (t.Copied s dir file r s' ↔ t.SearchesAncestors s dir file) ∧
      (dir.head? = some '/' → .up ∉ pathSteps dir →
        (t.SearchesAncestors s dir file ↔ component (lastPart dir) ≠ none ∨
          ∀ v, t.value s file (t.dirs.place dir) = some v →
            ∃ name parent, t.dirs.place dir = name :: parent ∧
              t.value s file parent = some v)) := by
  refine ⟨_, _, fun fuel hf => copyParent_eq rfl hf, ?_,
    DirectoryTree.searchesAncestors_iff hw⟩
  cases hn : t.dirs.named dir with
  | none => exact DirectoryTree.copied_unnamed hw hn
  | some d => exact DirectoryTree.copied_named hw hn

end

/-- A name that a file can have. -/
def ownFile (d : Node) (name : Chars) : Option (Node × Chars) :=
  if component name = some (.down name) then some (d, name) else none

/-- The file that the text leads to, each directory having its own. -/
def Directories.ownEntry (ds : Directories) (d : Node) (file : Chars) : Option (Node × Chars) :=
  match parentOf file with
  | none => ownFile d file
  | some p => (ds.follow d p).bind fun e => ownFile e (lastPart file)

def ownFiles (ds : Directories) : DirectoryTree (Node × Chars) where
  dirs := ds
  paths :=
    { locate path :=
        (parentOf path).bind fun p => (ds.named p).bind fun d => ownFile d (lastPart path)
      unlocated _ := notFound }
  entry d file := if ds.there d then Directories.ownEntry ds d file else none
  entry_there h := (Option.ite_none_right_eq_some.1 h).1
  locate_eq dir file := by
    have hthere (x : Node → Option (Node × Chars)) :
        ((ds.named dir).bind fun d => if ds.there d then x d else none) =
          (ds.named dir).bind x := by
      cases hd : ds.named dir with
      | none => rfl
      | some d => exact if_pos (ds.there_of_named hd)
    rw [hthere, filePath]
    cases hp : parentOf file with
    | none =>
      have hs := parentOf_append (p := dir) (parentOf_eq_none.1 hp)
      simp only [hs, Option.bind_some, Directories.ownEntry, hp]
    | some p =>
      obtain ⟨name, rfl, hn⟩ := parentOf_eq_some hp
      have hs := parentOf_append (p := dir ++ '/' :: p) hn
      rw [List.append_assoc, List.cons_append] at hs
      simp only [hs, Option.bind_some, Directories.ownEntry, hp, (parentOf_append hn).2,
        ds.named_append_slash, Option.bind_assoc]

theorem ownFiles_writable {ds : Directories} {file : Chars} (hs : '/' ∉ file)
    (hc : component file = some (.down file)) : (ownFiles ds).Writable file := by
  intro d hd
  refine ⟨(d, file), (if_pos hd).trans ?_⟩
  rw [Directories.ownEntry, parentOf_eq_none.2 hs]
  exact if_pos hc

/-- The directories above one, and it. -/
def chainTo (deep : Node) : Directories where
  there d := decide (d <:+ deep)
  cwd := []
  there_root := decide_eq_true List.nil_suffix
  there_above h := decide_eq_true ((List.suffix_cons _ _).trans (of_decide_eq_true h))
  there_cwd := decide_eq_true List.nil_suffix

def cpusetTree : DirectoryTree (Node × Chars) :=
  ownFiles (chainTo ["b".toList, "a".toList, "c".toList])

/-- `/c` and `/c/a/b` have cpus of their own. -/
def cpusetFiles : Contents (Node × Chars) := fun f =>
  if f = (["c".toList], "cpus".toList) then some "0-3\n".toList
  else if f = (["a".toList, "c".toList], "cpus".toList) then some "\n".toList
  else if f = (["b".toList, "a".toList, "c".toList], "cpus".toList) then some "0\n".toList
  else none

theorem cpusetTree_writable : cpusetTree.Writable "cpus".toList :=
  ownFiles_writable (by decide) (by decide)

theorem copyParent_copies_cpuset : ∃ r s', (∀ fuel, (shortened "/c/a/b".toList).length < fuel →
      copyParent cpusetTree.paths "cpus".toList fuel "/c/a/b".toList cpusetFiles = some (r, s')) ∧
    r = .ok () ∧ ∀ d ∈ [["b".toList, "a".toList, "c".toList], ["a".toList, "c".toList]],
      cpusetTree.content s' "cpus".toList d = some "0-3\n".toList := by
  obtain ⟨r, s', hr, hcopied, hsearch⟩ := copyParent_copies_iff cpusetTree cpusetFiles
    "/c/a/b".toList "cpus".toList cpusetTree_writable
  have hname : component (lastPart "/c/a/b".toList) ≠ none := by decide
  obtain ⟨hvalue, -⟩ := hcopied.2 ((hsearch (by decide) (by decide)).2 (.inl hname))
  obtain ⟨hok, hfilled, -⟩ := hvalue [["a".toList, "c".toList]] ["c".toList] [[]] "0-3\n".toList
    (by decide) (by decide) (by decide) (by decide)
  exact ⟨r, s', hr, hok, hfilled⟩

/-- With a slash behind it, the directory is its own parent for the function: its value stays, where
that of its parent should be. -/
theorem copyParent_not_copies : ¬ ∀ (t : DirectoryTree (Node × Chars)) (s : Contents (Node × Chars))
    (dir file : Chars), t.Writable file →
    ∃ fuel r s', copyParent t.paths file fuel dir s = some (r, s') ∧ t.Copied s dir file r s' := by
  intro h
  obtain ⟨fuel, r, s', hrun, hvalue, -⟩ := h cpusetTree cpusetFiles "/c/a/b/".toList "cpus".toList
    cpusetTree_writable
  have hown : cpusetTree.paths.locate (filePath "/c/a/b/".toList "cpus".toList) =
      some (["b".toList, "a".toList, "c".toList], "cpus".toList) := by decide
  obtain ⟨-, hfilled, -⟩ := hvalue [["a".toList, "c".toList]] ["c".toList] [[]] "0-3\n".toList
    (by decide) (by decide) (by decide) (by decide)
  cases fuel with
  | zero => cases hrun
  | succ fuel =>
    have hread : cpusetTree.paths.readFile cpusetFiles "/c/a/b".toList "cpus".toList =
        .ok "0\n".toList := by decide
    rw [copyParent_of_valued (by decide) hread (by decide), store_of_locate hown] at hrun
    cases hrun
    have hkept := hfilled ["b".toList, "a".toList, "c".toList] (by decide)
    rw [DirectoryTree.content,
      show cpusetTree.entry ["b".toList, "a".toList, "c".toList] "cpus".toList =
        some (["b".toList, "a".toList, "c".toList], "cpus".toList) by decide] at hkept
    simp at hkept

end KataAgent