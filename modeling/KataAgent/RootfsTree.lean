import KataAgent.MountTree
import KataAgent.RootfsEscape

namespace KataAgent
open Fallible TreePaths MountTrees
set_option autoImplicit true

/-- The directories and links of the guest, each directory with the sources mounted on it. -/
abbrev RootfsTree := Tree Chars Chars Chars

/-- The place that a path names when a link there is followed. -/
def RootfsTree.follow (t : RootfsTree) (place : List Chars) : List Chars :=
  match t place with
  | some (.link text) => resolve place.tail text
  | _ => place

/-- What a call of the mounts leaves of the tree when it succeeds. A remount mounts nothing. -/
def RootfsTree.call (rootfs : List Chars) (t : RootfsTree) : RootfsCall → RootfsTree
  | .mkdir dir => t.make (walk [] dir) (.dir [])
  | .symlink original link => t.make (resolve rootfs link) (.link original)
  | .mount (some source) target _ flags _ =>
    if flags &&& MS_REMOUNT = 0 then t.mount (t.follow (resolve rootfs target)) source else t
  | _ => t

/-- The tree has room for what the call makes, or the directory that it needs. -/
def RootfsTree.Allows (rootfs : List Chars) (t : RootfsTree) : RootfsCall → Prop
  | .mkdir dir => t (walk [] dir) = none ∧ t.IsDir (walk [] dir).tail
  | .symlink _ link => t (resolve rootfs link) = none ∧ t.IsDir (resolve rootfs link).tail
  | .mount (some _) target _ _ _ => t.IsDir (t.follow (resolve rootfs target))
  | .stat path => t.IsDir (t.follow (resolve rootfs path))
  | .chdir _ => True
  | _ => False

/-- The tree after the calls, the latest of them first. A call that fails changes nothing. -/
def RootfsGuest.tree (g : RootfsGuest) (rootfs : List Chars) (start : RootfsTree) :
    List RootfsCall → RootfsTree
  | [] => start
  | c :: h =>
    if (g.fault h c).isSome then g.tree rootfs start h else (g.tree rootfs start h).call rootfs c

/-- A guest that does what its tree allows, and in which the cgroup paths are directories. -/
structure RootfsGuest.Obliges (g : RootfsGuest) (rootfs : List Chars) (start : RootfsTree)
    (real : Chars → Canonical) (cpath : Table Chars Chars) : Prop where
  canonicalize : ∀ c h key source, cpath.lookup key = some source →
    g.canonicalize (c :: h) source = .ok (real source)
  utf8 : ∀ key source, cpath.lookup key = some source → g.utf8 (real source) = true
  isFile : ∀ h key source, cpath.lookup key = some source → g.isFile h (real source) = false
  getcwd : ∀ h, ∃ dir, g.getcwd h = .ok dir
  present : ∀ h dir, (∀ text, g.tree rootfs start h (walk [] dir) ≠ some (.link text)) →
    g.present h dir = (g.tree rootfs start h (walk [] dir)).isSome
  fault : ∀ h c, (g.tree rootfs start h).Allows rootfs c → g.fault h c = none

/-- The links that the calls make. -/
def madeLinks (h : List RootfsCall) : List Chars :=
  h.filterMap fun
    | .symlink _ link => some link
    | _ => none

section
variable {g : RootfsGuest} {rootfs : List Chars} {start t : RootfsTree} {real : Chars → Canonical}
variable {cpath mounts : Table Chars Chars} {h : List RootfsCall} {c : RootfsCall}
variable {place x : List Chars} {text dest source : Chars} {flags : MsFlags} {data : String}

theorem tree_cons (hf : g.fault h c = none) :
    g.tree rootfs start (c :: h) = (g.tree rootfs start h).call rootfs c := by
  rw [RootfsGuest.tree, hf]
  rfl

theorem tree_skip (hc : (g.tree rootfs start h).call rootfs c = g.tree rootfs start h) :
    g.tree rootfs start (c :: h) = g.tree rootfs start h := by
  rw [RootfsGuest.tree, hc]
  exact ite_self _

theorem RootfsTree.follow_dir (h : t.IsDir place) : t.follow place = place := by
  obtain ⟨ms, h⟩ := h
  rw [RootfsTree.follow, h]

theorem perform_ok (hf : g.fault h c = none) : perform g c h = (.ok (), c :: h) := by
  rw [perform, ask, hf]
  rfl

theorem attempt_ok (hf : g.fault h c = none) : attempt g c h = (.ok true, c :: h) := by
  rw [attempt, ask, hf]
  rfl

theorem withErrno_ok {x : Setup Unit} {h' : List RootfsCall} (hx : x h = (.ok (), h')) :
    withErrno x h = (.ok (), h') := by
  rw [withErrno, hx]

theorem isDir_make_self (hl : ∀ text, t place ≠ some (.link text)) :
    (t.make place (.dir [])).IsDir place := by
  rw [Tree.IsDir, Tree.make, if_pos rfl]
  cases ht : t place with
  | none => exact ⟨[], rfl⟩
  | some e =>
    cases e with
    | dir ms => exact ⟨ms, rfl⟩
    | link text => exact absurd ht (hl text)

theorem isDir_make {e : MountTrees.Node Chars Chars} (hd : t.IsDir x) :
    (t.make place e).IsDir x := by
  obtain ⟨ms, hx⟩ := hd
  refine ⟨ms, ?_⟩
  rw [Tree.make, hx]
  exact ite_self _

theorem make_not_link {text' : Chars} (hl : t x ≠ some (.link text')) :
    t.make place (.dir []) x ≠ some (.link text') := by
  by_cases hx : x = place
  · rw [Tree.make, if_pos hx]
    cases ht : t x with
    | none =>
      intro h
      cases h
    | some e =>
      rw [ht] at hl
      exact hl
  · rw [Tree.make_of_ne hx]
    exact hl

/-- One directory of the path: it is made if it is missing. -/
theorem createDirAll_step (hg : g.Obliges rootfs start real cpath) {above : List (Step Chars)}
    {name : Chars} (hd : (g.tree rootfs start h).IsDir (walk [] (above ++ [.down name])).tail)
    (hl : ∀ text, g.tree rootfs start h (walk [] (above ++ [.down name])) ≠ some (.link text)) :
    ∃ h', (∀ steps, createDirAll g above (.down name :: steps) h =
        createDirAll g (above ++ [.down name]) steps h') ∧
      g.tree rootfs start h' =
        (g.tree rootfs start h).make (walk [] (above ++ [.down name])) (.dir []) ∧
      madeLinks h' = madeLinks h := by
  have hpresent := hg.present h (above ++ [.down name]) hl
  cases hs : (g.tree rootfs start h (walk [] (above ++ [.down name]))).isSome with
  | true =>
    refine ⟨h, ?_, ?_, rfl⟩
    · intro steps
      rw [createDirAll, Act.bind_ok (Act.read_apply _), hpresent, hs]
      rfl
    · rw [Tree.make_of_some]
      intro hn
      rw [hn] at hs
      cases hs
  | false =>
    have hnone : g.tree rootfs start h (walk [] (above ++ [.down name])) = none :=
      Option.not_isSome_iff_eq_none.1 (ne_true_of_eq_false hs)
    have hfault : g.fault h (.mkdir (above ++ [.down name])) = none := hg.fault _ _ ⟨hnone, hd⟩
    refine ⟨.mkdir (above ++ [.down name]) :: h, ?_, tree_cons hfault, rfl⟩
    intro steps
    rw [createDirAll, Act.bind_ok (Act.read_apply _), hpresent, hs,
      if_neg Bool.false_ne_true, Act.bind_ok (attempt_ok hfault)]
    rfl

/-- The directories that are missing are made, and nothing else. -/
theorem createDirAll_ok (hg : g.Obliges rootfs start real cpath) (names : List Chars)
    {above : List (Step Chars)} (hd : ∀ x, x <:+ walk [] above → (g.tree rootfs start h).IsDir x)
    (hl : ∀ x, x <:+ names.reverse ++ walk [] above →
      ∀ text, g.tree rootfs start h x ≠ some (.link text)) :
    ∃ h', createDirAll g above (names.map .down) h = (.ok (), h') ∧
      g.tree rootfs start h' =
        (g.tree rootfs start h).makeAll (names.reverse ++ walk [] above) ∧
      madeLinks h' = madeLinks h := by
  induction names generalizing above h with
  | nil => exact ⟨h, rfl, (Tree.makeAll_of_dirs hd).symm, rfl⟩
  | cons name names ih =>
    have hwalk : walk [] (above ++ [.down name]) = name :: walk [] above := walk_append
    have htarget : (name :: names).reverse ++ walk [] above =
        names.reverse ++ walk [] (above ++ [.down name]) := by
      rw [hwalk, List.reverse_cons, List.append_assoc]
      rfl
    rw [htarget] at hl ⊢
    have hnode := hl _ (List.suffix_append _ _)
    have habove : (g.tree rootfs start h).IsDir (walk [] (above ++ [.down name])).tail := by
      rw [hwalk]
      exact hd _ List.suffix_rfl
    obtain ⟨h₁, hstep, hmake, hmade⟩ := createDirAll_step hg habove hnode
    have hdirs (x : List Chars) (hx : x <:+ walk [] (above ++ [.down name])) :
        (g.tree rootfs start h₁).IsDir x := by
      rw [hmake]
      rw [hwalk] at hx hnode ⊢
      rcases List.suffix_cons_iff.1 hx with rfl | hx
      · exact isDir_make_self hnode
      · exact isDir_make (hd x hx)
    have hlinks (x : List Chars) (hx : x <:+ names.reverse ++ walk [] (above ++ [.down name]))
        (text : Chars) : g.tree rootfs start h₁ x ≠ some (.link text) := by
      rw [hmake]
      exact make_not_link (hl x hx text)
    obtain ⟨h', hr, ht, hm⟩ := ih hdirs hlinks
    refine ⟨h', ?_, ?_, hm.trans hmade⟩
    · rw [List.map_cons, hstep]
      exact hr
    · rw [ht, hmake]
      exact Tree.makeAll_make (List.suffix_append _ _)

/-- The absolute path that leads to the place by its names alone. -/
structure Leads (dest : Chars) (place : List Chars) : Prop where
  absolute : dest.head? = some '/'
  steps : pathSteps dest = place.reverse.map .down

theorem Leads.resolve (hp : Leads dest place) (rootfs : List Chars) :
    resolve rootfs dest = place := by
  rw [TreePaths.resolve, hp.absolute, if_pos rfl, hp.steps, walk_down, List.append_nil]

theorem Leads.createDirAll_ok (hp : Leads dest place) (hg : g.Obliges rootfs start real cpath)
    (hroot : (g.tree rootfs start h).IsDir [])
    (hl : ∀ x, x <:+ place → ∀ text, g.tree rootfs start h x ≠ some (.link text)) :
    ∃ h', createDirAll g [] (pathSteps dest) h = (.ok (), h') ∧
      g.tree rootfs start h' = (g.tree rootfs start h).makeAll place ∧
      madeLinks h' = madeLinks h := by
  have hplace : place.reverse.reverse ++ walk [] [] = place := by
    rw [List.reverse_reverse]
    exact List.append_nil _
  have hd (x : List Chars) (hx : x <:+ walk [] []) : (g.tree rootfs start h).IsDir x := by
    rw [List.suffix_nil.1 hx]
    exact hroot
  rw [← hplace] at hl ⊢
  rw [hp.steps]
  exact KataAgent.createDirAll_ok hg _ hd hl

variable {m : Mount} {key : Chars}

theorem mountSource_other_ok (m : Mount) (hp : Leads dest place)
    (hg : g.Obliges rootfs start real cpath)
    (hroot : (g.tree rootfs start h).IsDir [])
    (hl : ∀ x, x <:+ place → ∀ text, g.tree rootfs start h x ≠ some (.link text))
    (hb : m.fieldType ≠ "bind") :
    ∃ h', mountSource g m dest h = (.ok m.source, h') ∧
      g.tree rootfs start h' = (g.tree rootfs start h).makeAll place ∧
      madeLinks h' = madeLinks h := by
  obtain ⟨h', hr, ht, hm⟩ := hp.createDirAll_ok hg hroot hl
  refine ⟨h', ?_, ht, hm⟩
  rw [mountSource, if_neg hb, Act.bind_ok hr]
  rfl

theorem mountSource_bind_ok (hp : Leads dest place) (hg : g.Obliges rootfs start real cpath)
    (hroot : (g.tree rootfs start h).IsDir [])
    (hl : ∀ x, x <:+ place → ∀ text, g.tree rootfs start h x ≠ some (.link text))
    (hb : m.fieldType = "bind") (hh : h ≠ []) (hc : cpath.lookup key = some m.source) :
    ∃ h', mountSource g m dest h = (.ok (real m.source).text, h') ∧
      g.tree rootfs start h' = (g.tree rootfs start h).makeAll place ∧
      madeLinks h' = madeLinks h := by
  obtain ⟨c, l, rfl⟩ := List.exists_cons_of_ne_nil hh
  have hcanon : canonicalize g m.source (c :: l) =
      (.ok (real m.source), .canonicalize m.source :: c :: l) := by
    rw [canonicalize, ask, hg.canonicalize c l key m.source hc]
  have hfile (l : List RootfsCall) :
      isFile g (real m.source) l = (.ok false, .stat (real m.source).text :: l) := by
    rw [isFile, ask, hg.isFile l key m.source hc]
  have htext (l : List RootfsCall) :
      toStr g (real m.source) l = (.ok (real m.source).text, l) := by
    rw [toStr, hg.utf8 key m.source hc]
    rfl
  have hsame : g.tree rootfs start
      (.stat (real m.source).text :: .canonicalize m.source :: c :: l) =
        g.tree rootfs start (c :: l) := by
    rw [tree_skip rfl, tree_skip rfl]
  rw [← hsame] at hroot hl ⊢
  obtain ⟨h', hr, ht, hm⟩ := hp.createDirAll_ok hg hroot hl
  refine ⟨.stat (real m.source).text :: h', ?_, ?_, hm⟩
  · rw [mountSource, if_pos hb, Act.bind_ok hcanon, Act.bind_ok (hfile _)]
    have hdir : (Act.lift (mountDir false dest) : Setup _) =
        (pure (pathSteps dest) : Setup _) := rfl
    rw [hdir, Act.bind_ok (Act.pure_apply _), Act.bind_ok hr, Act.bind_ok (hfile _)]
    exact htext _
  · rw [tree_skip rfl]
    exact ht

theorem noRemount_or {a b : MsFlags} (hf : flags &&& MS_REMOUNT = 0) (ha : a &&& MS_REMOUNT = 0)
    (hb : b &&& MS_REMOUNT = 0) : (flags ||| a ||| b) &&& MS_REMOUNT = 0 := by
  have hd : (flags ||| a ||| b) &&& MS_REMOUNT =
      (flags &&& MS_REMOUNT) ||| (a &&& MS_REMOUNT) ||| (b &&& MS_REMOUNT) := by
    apply UInt64.toBitVec_inj.1
    simp only [UInt64.toBitVec_and, UInt64.toBitVec_or, BitVec.and_or_distrib_right]
  rw [hd, hf, ha, hb]
  rfl

theorem remount_or (flags : MsFlags) : (flags ||| MS_REMOUNT) &&& MS_REMOUNT ≠ 0 := by
  intro h
  have hbit : ((flags ||| MS_REMOUNT) &&& MS_REMOUNT).toNat.testBit 5 = true := by
    rw [UInt64.toNat_and, UInt64.toNat_or, Nat.testBit_and, Nat.testBit_or]
    exact Bool.and_eq_true_iff.2 ⟨Bool.or_true _, rfl⟩
  rw [h] at hbit
  cases hbit

/-- A mount on a directory is not refused, whatever its type, its flags and its options. -/
theorem Leads.mount_fault (hp : Leads dest place) (hg : g.Obliges rootfs start real cpath)
    (hd : (g.tree rootfs start h).IsDir place) (source : Chars) (fstype : Option String)
    (flags : MsFlags) (data : Option String) :
    g.fault h (.mount (some source) dest fstype flags data) = none := by
  apply hg.fault
  change (g.tree rootfs start h).IsDir _
  rw [hp.resolve, RootfsTree.follow_dir hd]
  exact hd

theorem Leads.tryStat_ok (hp : Leads dest place) (hg : g.Obliges rootfs start real cpath)
    (hd : (g.tree rootfs start h).IsDir place) : tryStat g dest h = (.ok (), .stat dest :: h) := by
  have hstat : g.fault h (.stat dest) = none := by
    apply hg.fault
    change (g.tree rootfs start h).IsDir _
    rw [hp.resolve, RootfsTree.follow_dir hd]
    exact hd
  rw [tryStat, ask, hstat]

theorem tree_remount (g : RootfsGuest) (rootfs : List Chars) (start : RootfsTree)
    (h : List RootfsCall) (source dest : Chars) (fstype : Option String) (flags : MsFlags)
    (data : Option String) :
    g.tree rootfs start (.mount (some source) dest fstype (flags ||| MS_REMOUNT) data :: h) =
      g.tree rootfs start h :=
  tree_skip (if_neg (remount_or flags))

/-- A source is mounted on a directory. -/
theorem mountFrom_ok (m : Mount) (data : String) (hp : Leads (text ++ m.destination) place)
    (hg : g.Obliges rootfs start real cpath) (hf : flags &&& MS_REMOUNT = 0)
    {h' : List RootfsCall} (hs : mountSource g m (text ++ m.destination) h = (.ok source, h'))
    (hd : (g.tree rootfs start h').IsDir place) :
    ∃ l, mountFrom g m text flags data h = (.ok (), l) ∧
      g.tree rootfs start l = (g.tree rootfs start h').mount place source ∧
      madeLinks l = madeLinks h' ∧ l ≠ [] := by
  have hskip : g.tree rootfs start (.stat (text ++ m.destination) :: h') =
      g.tree rootfs start h' := tree_skip rfl
  have hmount := hp.mount_fault hg (hskip ▸ hd) source (some m.fieldType) flags (some data)
  have htree : g.tree rootfs start (.mount (some source) (text ++ m.destination)
      (some m.fieldType) flags (some data) :: .stat (text ++ m.destination) :: h') =
        (g.tree rootfs start h').mount place source := by
    rw [tree_cons hmount, hskip, RootfsTree.call, if_pos hf, hp.resolve,
      RootfsTree.follow_dir hd]
  rw [mountFrom, Act.bind_ok hs, Act.bind_ok (hp.tryStat_ok hg hd),
    Act.bind_ok (withErrno_ok (perform_ok hmount))]
  split
  · have hplace : ((g.tree rootfs start h').mount place source).IsDir place := by
      obtain ⟨ms, hd⟩ := hd
      exact ⟨source :: ms, Tree.mount_self hd⟩
    rw [← htree] at hplace
    have hagain := hp.mount_fault hg hplace (text ++ m.destination) none (flags ||| MS_REMOUNT)
      none
    refine ⟨_, withErrno_ok (perform_ok hagain), ?_, rfl, List.cons_ne_nil _ _⟩
    rw [tree_remount, htree]
  · exact ⟨_, rfl, htree, rfl, List.cons_ne_nil _ _⟩

end

end KataAgent
