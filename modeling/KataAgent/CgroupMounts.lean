import KataAgent.RootfsTree

namespace KataAgent
open Fallible TreePaths MountTrees
set_option autoImplicit true

/-- The controller has a mount point and a cgroup path. -/
def Attached (cpath mounts : Table Chars Chars) (key mount source : Chars) : Prop :=
  mounts.lookup key = some mount ∧ cpath.lookup key = some source

/-- Controllers with the same cgroup path have the same mount point. -/
def SharedMounts (cpath mounts : Table Chars Chars) : Prop :=
  ∀ key key' mount mount' source, Attached cpath mounts key mount source →
    Attached cpath mounts key' mount' source → mount = mount'

/-- A name that a directory entry can have. -/
def EntryName (name : Chars) : Prop := component name = some (.down name) ∧ '/' ∉ name

instance {name : Chars} : Decidable (EntryName name) := inferInstanceAs (Decidable (_ ∧ _))

/-- Mount points of different cgroup paths have different last components. -/
def DistinctBases (cpath mounts : Table Chars Chars) : Prop :=
  ∀ key key' mount mount' source source', Attached cpath mounts key mount source →
    Attached cpath mounts key' mount' source' → mountBase mount = mountBase mount' →
      source = source'

/-- A controller that is named like the last component of a mount point is mounted there itself. -/
def DistinctNames (cpath mounts : Table Chars Chars) : Prop :=
  ∀ key mount source key' mount' source', Attached cpath mounts key mount source →
    Attached cpath mounts key' mount' source' → key = mountBase mount' → key = mountBase mount

/-- Every cgroup path and every controller has an entry of the destination to itself. -/
structure CgroupLayout (cpath mounts : Table Chars Chars) : Prop where
  shared : SharedMounts cpath mounts
  apart : DistinctBases cpath mounts
  named : DistinctNames cpath mounts
  entries : ∀ key mount source, Attached cpath mounts key mount source →
    EntryName key ∧ EntryName (mountBase mount)

/-- The place of the cgroup mount. -/
def Mount.place (m : Mount) (rootfs : List Chars) : List Chars :=
  walk rootfs (pathSteps m.destination)

/-- The destination is one path below the rootfs, with no link on the way. -/
structure Mount.Placed (m : Mount) (rootfs : List Chars) (start : RootfsTree) : Prop where
  accepted : m.Accepted
  single : ¬ "//".toList <+: m.destination ++ ['/']
  root : start.IsDir []
  plain : ∀ x, x <:+ m.place rootfs → ∀ text, start x ≠ some (.link text)

/-- The place that the container, whose root is the rootfs, reaches through a link. -/
def RootfsTree.inside (rootfs : List Chars) (t : RootfsTree) (place : List Chars) : List Chars :=
  match t place with
  | some (.link text) => walk rootfs (pathSteps text)
  | _ => place

/-- The entries of the destination: each cgroup path is mounted, once, at the last component of its
mount point, and a controller with another name than that is a link to it. -/
structure CgroupEntries (t : RootfsTree) (place : List Chars) (destination : Chars)
    (real : Chars → Canonical) (R : Chars → Chars → Chars → Prop) : Prop where
  mounted : ∀ key mount source, R key mount source →
    t (mountBase mount :: place) = some (.dir [(real source).text])
  linked : ∀ key mount source, R key mount source → key ≠ mountBase mount →
    t (key :: place) = some (.link (destination ++ '/' :: mountBase mount))
  only : ∀ name, t (name :: place) ≠ none → ∃ key mount source, R key mount source ∧
    (name = mountBase mount ∨ name = key)

/-- The entries of the destination, in a tree that is otherwise as it was. -/
structure CgroupTree (base t : RootfsTree) (place : List Chars) (destination : Chars)
    (real : Chars → Canonical) (R : Chars → Chars → Chars → Prop) : Prop where
  entries : CgroupEntries t place destination real R
  outside : ∀ x, (∀ name, ¬ name :: place <:+ x) → t x = base x
  deeper : ∀ x name, name :: place <:+ x → x ≠ name :: place → t x = none

/-- The controller is one of those done already. -/
def Entered (cpath mounts : Table Chars Chars) (done : List Chars) (key mount source : Chars) :
    Prop :=
  key ∈ done ∧ Attached cpath mounts key mount source

section
variable {base t t' : RootfsTree} {place : List Chars} {destination key mount source : Chars}
variable {real : Chars → Canonical} {R R' : Chars → Chars → Chars → Prop} {done : List Chars}
variable {cpath mounts : Table Chars Chars} {name : Chars}

theorem Attached.eq {mount' source' : Chars} (ha : Attached cpath mounts key mount source)
    (hb : Attached cpath mounts key mount' source') : mount = mount' ∧ source = source' :=
  ⟨Option.some.inj (ha.1.symm.trans hb.1), Option.some.inj (ha.2.symm.trans hb.2)⟩

theorem CgroupEntries.eq_none (ht : CgroupEntries t place destination real R)
    (h : ∀ key mount source, R key mount source → name ≠ mountBase mount ∧ name ≠ key) :
    t (name :: place) = none := by
  by_contra hne
  obtain ⟨key, mount, source, hr, hn⟩ := ht.only name hne
  rcases hn with hn | hn
  · exact (h key mount source hr).1 hn
  · exact (h key mount source hr).2 hn

theorem CgroupEntries.unique (ht : CgroupEntries t place destination real R)
    (ht' : CgroupEntries t' place destination real R) (name : Chars) :
    t (name :: place) = t' (name :: place) := by
  by_cases h : ∃ key mount source, R key mount source ∧ (name = mountBase mount ∨ name = key)
  · obtain ⟨key, mount, source, hr, hn⟩ := h
    by_cases hb : name = mountBase mount
    · rw [hb, ht.mounted key mount source hr, ht'.mounted key mount source hr]
    · have hname := hn.resolve_left hb
      rw [hname] at hb ⊢
      rw [ht.linked key mount source hr hb, ht'.linked key mount source hr hb]
  · have hfree (key mount source : Chars) (hr : R key mount source) :
        name ≠ mountBase mount ∧ name ≠ key :=
      ⟨fun hn => h ⟨key, mount, source, hr, .inl hn⟩,
        fun hn => h ⟨key, mount, source, hr, .inr hn⟩⟩
    rw [ht.eq_none hfree, ht'.eq_none hfree]

/-- The entries determine the tree. -/
theorem CgroupTree.unique (ht : CgroupTree base t place destination real R)
    (ht' : CgroupTree base t' place destination real R) : t = t' := by
  funext x
  by_cases h : ∃ name, name :: place <:+ x
  · obtain ⟨name, hn⟩ := h
    by_cases hx : x = name :: place
    · rw [hx]
      exact ht.entries.unique ht'.entries name
    · rw [ht.deeper x name hn hx, ht'.deeper x name hn hx]
  · rw [not_exists] at h
    rw [ht.outside x h, ht'.outside x h]

theorem CgroupTree.congr (ht : CgroupTree base t place destination real R)
    (h : ∀ key mount source, R key mount source ↔ R' key mount source) :
    CgroupTree base t place destination real R' := by
  have hr : R = R' := by
    funext key mount source
    exact propext (h key mount source)
  rw [← hr]
  exact ht

/-- After a controller that has a mount point and a cgroup path, that path is mounted too. -/
theorem entered_cons_attached (ha : Attached cpath mounts key mount source) (s : Chars) :
    (∃ k mt, Entered cpath mounts (key :: done) k mt s) ↔
      s = source ∨ ∃ k mt, Entered cpath mounts done k mt s := by
  constructor
  · intro h
    obtain ⟨k, mt, hd, hr⟩ := h
    rcases List.mem_cons.1 hd with rfl | hd
    · exact .inl (hr.eq ha).2
    · exact .inr ⟨k, mt, hd, hr⟩
  · intro h
    rcases h with rfl | ⟨k, mt, hd, hr⟩
    · exact ⟨key, mount, List.mem_cons_self, ha⟩
    · exact ⟨k, mt, List.mem_cons_of_mem _ hd, hr⟩

/-- A controller without a mount point or a cgroup path is passed over. -/
theorem entered_cons_unattached (h : ∀ mount source, ¬ Attached cpath mounts key mount source)
    (k mt s : Chars) :
    Entered cpath mounts (key :: done) k mt s ↔ Entered cpath mounts done k mt s := by
  constructor
  · intro hr
    rcases List.mem_cons.1 hr.1 with rfl | hd
    · exact absurd hr.2 (h mt s)
    · exact ⟨hd, hr.2⟩
  · intro hr
    exact ⟨List.mem_cons_of_mem _ hr.1, hr.2⟩

theorem CgroupEntries.add
    (ht : CgroupEntries t place destination real (Entered cpath mounts done))
    (hl : CgroupLayout cpath mounts) (ha : Attached cpath mounts key mount source)
    (hk : key ∉ done) (hbase : t' (mountBase mount :: place) = some (.dir [(real source).text]))
    (hkey : key ≠ mountBase mount →
      t' (key :: place) = some (.link (destination ++ '/' :: mountBase mount)))
    (hother : ∀ name, name ≠ mountBase mount → name ≠ key →
      t' (name :: place) = t (name :: place)) :
    CgroupEntries t' place destination real (Entered cpath mounts (key :: done)) := by
  refine ⟨?_, ?_, ?_⟩
  · intro k m s hr
    by_cases hb : mountBase m = mountBase mount
    · rw [hb, hl.apart k key m mount s source hr.2 ha hb]
      exact hbase
    · rcases List.mem_cons.1 hr.1 with rfl | hd
      · exact absurd (congrArg mountBase (hr.2.eq ha).1) hb
      · have hkm : mountBase m ≠ key := by
          intro he
          exact hb (he.trans (hl.named key mount source k m s ha hr.2 he.symm))
        rw [hother _ hb hkm]
        exact ht.mounted k m s ⟨hd, hr.2⟩
  · intro k m s hr hne
    rcases List.mem_cons.1 hr.1 with rfl | hd
    · rw [(hr.2.eq ha).1] at hne ⊢
      exact hkey hne
    · have hkm : k ≠ mountBase mount := by
        intro he
        exact hne (hl.named k m s key mount source hr.2 ha he)
      rw [hother k hkm (ne_of_mem_of_not_mem hd hk)]
      exact ht.linked k m s ⟨hd, hr.2⟩ hne
  · intro name hne
    by_cases hb : name = mountBase mount
    · exact ⟨key, mount, source, ⟨List.mem_cons_self, ha⟩, .inl hb⟩
    · by_cases hn : name = key
      · exact ⟨key, mount, source, ⟨List.mem_cons_self, ha⟩, .inr hn⟩
      · rw [hother name hb hn] at hne
        obtain ⟨k, m, s, hr, hname⟩ := ht.only name hne
        exact ⟨k, m, s, ⟨List.mem_cons_of_mem _ hr.1, hr.2⟩, hname⟩

/-- Before the first controller the destination is empty. -/
theorem CgroupTree.start (h : ∀ x name, name :: place <:+ x → base x = none) :
    CgroupTree base base place destination real (Entered cpath mounts []) := by
  refine ⟨⟨?_, ?_, ?_⟩, ?_, ?_⟩
  · intro k m s hr
    cases hr.1
  · intro k m s hr
    cases hr.1
  · intro name hne
    exact absurd (h _ name List.suffix_rfl) hne
  · intro x _
    rfl
  · intro x name hx _
    exact h x name hx

/-- The step for a controller: its cgroup path is mounted, and it has its link. -/
theorem CgroupTree.add (ht : CgroupTree base t place destination real (Entered cpath mounts done))
    (hl : CgroupLayout cpath mounts) (ha : Attached cpath mounts key mount source)
    (hk : key ∉ done) (hbase : t' (mountBase mount :: place) = some (.dir [(real source).text]))
    (hkey : key ≠ mountBase mount →
      t' (key :: place) = some (.link (destination ++ '/' :: mountBase mount)))
    (hother : ∀ x, x ≠ mountBase mount :: place → x ≠ key :: place → t' x = t x) :
    CgroupTree base t' place destination real (Entered cpath mounts (key :: done)) := by
  have hnames (name : Chars) (hb : name ≠ mountBase mount) (hn : name ≠ key) :
      t' (name :: place) = t (name :: place) := by
    apply hother
    · intro he
      exact hb (List.cons_eq_cons.1 he).1
    · intro he
      exact hn (List.cons_eq_cons.1 he).1
  refine ⟨ht.entries.add hl ha hk hbase hkey hnames, ?_, ?_⟩
  · intro x hx
    rw [hother]
    · exact ht.outside x hx
    · intro he
      exact hx (mountBase mount) (he ▸ List.suffix_rfl)
    · intro he
      exact hx key (he ▸ List.suffix_rfl)
  · intro x name hn hx
    have hlast (y : Chars) : x ≠ y :: place := by
      intro he
      rw [he] at hn hx
      rcases List.suffix_cons_iff.1 hn with heq | hsuf
      · exact hx heq.symm
      · exact not_cons_suffix hsuf
    rw [hother x (hlast _) (hlast _)]
    exact ht.deeper x name hn hx

/-- The entries of another controller leave the name of a controller free. -/
theorem CgroupTree.key_free
    (ht : CgroupTree base t place destination real (Entered cpath mounts done))
    (hl : CgroupLayout cpath mounts) (ha : Attached cpath mounts key mount source)
    (hk : key ∉ done) (hne : key ≠ mountBase mount) : t (key :: place) = none := by
  apply ht.entries.eq_none
  intro k m s hr
  refine ⟨?_, ?_⟩
  · intro he
    exact hne (hl.named key mount source k m s ha hr.2 he)
  · intro he
    exact hk (he ▸ hr.1)

/-- The last component of a mount point is free until the cgroup path is mounted. -/
theorem CgroupTree.base_free
    (ht : CgroupTree base t place destination real (Entered cpath mounts done))
    (hl : CgroupLayout cpath mounts) (ha : Attached cpath mounts key mount source)
    (hs : ∀ k m, ¬ Entered cpath mounts done k m source) :
    t (mountBase mount :: place) = none := by
  apply ht.entries.eq_none
  intro k m s hr
  have hbase : mountBase mount ≠ mountBase m := by
    intro he
    have hsource := hl.apart key k mount m source s ha hr.2 he
    exact hs k m (hsource ▸ hr)
  refine ⟨hbase, ?_⟩
  intro he
  exact hbase (he.trans (hl.named k m s key mount source hr.2 ha he.symm))

end

theorem downs_of_up_notMem {s : List (Step Chars)} (h : .up ∉ s) :
    ∃ names : List Chars, s = names.map .down := by
  induction s with
  | nil => exact ⟨[], rfl⟩
  | cons x s ih =>
    cases x with
    | up => exact absurd List.mem_cons_self h
    | down name =>
      obtain ⟨names, rfl⟩ := ih fun hm => h (List.mem_cons_of_mem _ hm)
      exact ⟨name :: names, rfl⟩

section
variable {root : Canonical} {start : RootfsTree} {m : Mount} {place : List Chars}
variable {text name key : Chars}

theorem Leads.snoc (hp : Leads text place) (hn : EntryName name) :
    Leads (text ++ '/' :: name) (name :: place) where
  absolute := by
    rw [List.head?_append, hp.absolute]
    rfl
  steps := by
    rw [pathSteps_append_slash, hp.steps, pathSteps_of_slash_notMem hn.2, hn.1, List.reverse_cons,
      List.map_append]
    rfl

theorem EntryName.walk (hn : EntryName name) (place : List Chars) :
    walk place (pathSteps (text ++ '/' :: name)) = name :: walk place (pathSteps text) := by
  rw [pathSteps_append_slash, walk_append, pathSteps_of_slash_notMem hn.2, hn.1]
  rfl

theorem Mount.Placed.leads (hm : m.Placed root.names start) :
    Leads (root.text ++ m.destination) (m.place root.names) := by
  obtain ⟨p, hp⟩ := List.head?_eq_some_iff.1 hm.accepted.1
  have hup := up_notMem hm.accepted.2
  rw [hp, pathSteps_cons_slash] at hup
  obtain ⟨names, hnames⟩ := downs_of_up_notMem hup
  have hplace : m.place root.names = names.reverse ++ root.names := by
    rw [Mount.place, hp, pathSteps_cons_slash, hnames]
    have hdown : walk root.names (names.reverse.reverse.map Step.down) =
        names.reverse ++ root.names := walk_down names.reverse
    rw [List.reverse_reverse] at hdown
    exact hdown
  constructor
  · rw [List.head?_append, root.head?_text]
    rfl
  · rw [hplace, hp, pathSteps_append_slash, root.pathSteps_text, hnames, List.reverse_append,
      List.reverse_reverse, List.map_append]

theorem Mount.Placed.bind_leads (hm : m.Placed root.names start) (hn : EntryName name) :
    Leads (root.text ++ (m.destination ++ '/' :: name)) (name :: m.place root.names) := by
  rw [← List.append_assoc]
  exact hm.leads.snoc hn

/-- The link of a controller is made beside the mounts. -/
theorem Mount.Placed.link_place (hm : m.Placed root.names start) (hn : EntryName key) :
    resolve root.names (m.destination ++ '/' :: key).tail = key :: m.place root.names := by
  obtain ⟨p, hp⟩ := List.head?_eq_some_iff.1 hm.accepted.1
  have hs := hm.single
  rw [hp] at hs
  rw [hp, List.cons_append, List.tail_cons, resolve_relative (mt doubleSlash_iff.2 hs),
    hn.walk, Mount.place, hp, pathSteps_cons_slash]

end

/-- The tree after the first mount of `mount_cgroups`. -/
def cgroupBase (start : RootfsTree) (place : List Chars) : RootfsTree :=
  (start.makeAll place).mount place "tmpfs".toList

theorem cgroupBase_isDir {start : RootfsTree} {place x : List Chars}
    (hl : ∀ x, x <:+ place → ∀ text, start x ≠ some (.link text)) (hx : x <:+ place) :
    (cgroupBase start place).IsDir x := by
  have hdir := Tree.makeAll_isDir (hl x hx) hx
  by_cases he : x = place
  · rw [he] at hdir ⊢
    obtain ⟨mounts, hd⟩ := hdir
    exact ⟨_, Tree.mount_self hd⟩
  · obtain ⟨mounts, hd⟩ := hdir
    refine ⟨mounts, ?_⟩
    rw [cgroupBase, Tree.mount_beside, hd]
    intro hp
    exact he (hx.eq_of_length (Nat.le_antisymm hx.length_le hp.length_le))

theorem cgroupBase_below {start : RootfsTree} {place x : List Chars} {name : Chars}
    (hl : ∀ x, x <:+ place → ∀ text, start x ≠ some (.link text)) (hx : name :: place <:+ x) :
    cgroupBase start place x = none := by
  rw [cgroupBase]
  apply Tree.mount_below (Tree.makeAll_isDir (hl _ List.suffix_rfl) List.suffix_rfl)
  · exact (List.suffix_cons _ _).trans hx
  · intro he
    rw [he] at hx
    exact not_cons_suffix hx

/-- The loop of `mount_cgroups` between two controllers. -/
structure LoopState (g : RootfsGuest) (root : Canonical) (start : RootfsTree)
    (real : Chars → Canonical) (m : Mount) (cpath mounts : Table Chars Chars)
    (done srcs : List Chars) (h : List RootfsCall) : Prop where
  tree : CgroupTree (cgroupBase start (m.place root.names)) (g.tree root.names start h)
    (m.place root.names) m.destination real (Entered cpath mounts done)
  srcs : ∀ source, source ∈ srcs ↔ ∃ key mount, Entered cpath mounts done key mount source
  started : h ≠ []
  links : (madeLinks h).Nodup
  made : ∀ link ∈ madeLinks h, ∃ key ∈ done, link = (m.destination ++ '/' :: key).tail

section
variable {g : RootfsGuest} {root : Canonical} {start : RootfsTree} {real : Chars → Canonical}
variable {m : Mount} {cpath mounts : Table Chars Chars} {done srcs srcs' : List Chars}
variable {h h' : List RootfsCall} {c : RootfsCall} {key mount source : Chars} {flags : MsFlags}

theorem LoopState.isDir (hs : LoopState g root start real m cpath mounts done srcs h)
    (hm : m.Placed root.names start) {x : List Chars} (hx : x <:+ m.place root.names) :
    (g.tree root.names start h).IsDir x := by
  rw [Tree.IsDir, hs.tree.outside x]
  · exact cgroupBase_isDir hm.plain hx
  · intro name hn
    exact not_cons_suffix (hn.trans hx)

theorem LoopState.made_cons (hs : LoopState g root start real m cpath mounts done srcs h)
    (key : Chars) : ∀ link ∈ madeLinks h,
      ∃ k ∈ key :: done, link = (m.destination ++ '/' :: k).tail := by
  intro link hlink
  obtain ⟨k, hd, he⟩ := hs.made link hlink
  exact ⟨k, List.mem_cons_of_mem _ hd, he⟩

/-- A call that leaves the tree as it is, between two controllers. -/
theorem LoopState.call (hs : LoopState g root start real m cpath mounts done srcs h)
    (ht : g.tree root.names start (c :: h) = g.tree root.names start h)
    (hc : madeLinks (c :: h) = madeLinks h) :
    LoopState g root start real m cpath mounts done srcs (c :: h) := by
  refine ⟨?_, hs.srcs, List.cons_ne_nil _ _, ?_, ?_⟩
  · rw [ht]
    exact hs.tree
  · rw [hc]
    exact hs.links
  · rw [hc]
    exact hs.made

theorem link_inj {k k' : Chars} (hm : m.Placed root.names start)
    (he : (m.destination ++ '/' :: k).tail = (m.destination ++ '/' :: k').tail) : k = k' := by
  obtain ⟨p, hp⟩ := List.head?_eq_some_iff.1 hm.accepted.1
  rw [hp, List.cons_append, List.cons_append, List.tail_cons, List.tail_cons,
    List.append_cancel_left_eq] at he
  exact (List.cons_eq_cons.1 he).2

/-- A link in the destination, where its name is free. -/
theorem Mount.Placed.symlink_ok (hm : m.Placed root.names start)
    (hg : g.Obliges root.names start real cpath) (hn : EntryName key) (target : Chars)
    (hfree : g.tree root.names start h (key :: m.place root.names) = none)
    (hdir : (g.tree root.names start h).IsDir (m.place root.names)) :
    ∃ l, perform g (.symlink target (m.destination ++ '/' :: key).tail) h = (.ok (), l) ∧
      g.tree root.names start l =
        (g.tree root.names start h).make (key :: m.place root.names) (.link target) ∧
      madeLinks l = (m.destination ++ '/' :: key).tail :: madeLinks h ∧ l ≠ [] := by
  have hplace := hm.link_place hn
  have hfault : g.fault h (.symlink target (m.destination ++ '/' :: key).tail) = none := by
    apply hg.fault
    change g.tree root.names start h _ = none ∧ (g.tree root.names start h).IsDir _
    rw [hplace]
    exact ⟨hfree, hdir⟩
  refine ⟨_, perform_ok hfault, ?_, rfl, List.cons_ne_nil _ _⟩
  rw [tree_cons hfault, RootfsTree.call, hplace]

/-- The end of the body of the loop, when the cgroup path of the controller is mounted. -/
theorem LoopState.link (hs : LoopState g root start real m cpath mounts done srcs h)
    (hg : g.Obliges root.names start real cpath) (hm : m.Placed root.names start)
    (hl : CgroupLayout cpath mounts) (ha : Attached cpath mounts key mount source)
    (hk : key ∉ done) (hsrcs : ∀ s, s ∈ srcs' ↔ s = source ∨ s ∈ srcs)
    (hmounted : g.tree root.names start h' (mountBase mount :: m.place root.names) =
      some (.dir [(real source).text]))
    (hother : ∀ x, x ≠ mountBase mount :: m.place root.names →
      g.tree root.names start h' x = g.tree root.names start h x)
    (hlinks : madeLinks h' = madeLinks h) (hne : h' ≠ []) :
    ∃ l, linkController g m.destination key (mountBase mount) h' = (.ok (), l) ∧
      LoopState g root start real m cpath mounts (key :: done) srcs' l := by
  have hsrcs' (s : Chars) :
      s ∈ srcs' ↔ ∃ k mt, Entered cpath mounts (key :: done) k mt s := by
    rw [hsrcs, hs.srcs, entered_cons_attached ha]
  have hmade := hs.made_cons key
  rw [← hlinks] at hmade
  rw [linkController]
  by_cases hb : key = mountBase mount
  · rw [if_neg (not_not.2 hb)]
    refine ⟨h', rfl, ?_, hsrcs', hne, hlinks ▸ hs.links, hmade⟩
    exact hs.tree.add hl ha hk hmounted (fun hn => absurd hb hn) fun x hx _ => hother x hx
  · have hfree : g.tree root.names start h' (key :: m.place root.names) = none := by
      rw [hother]
      · exact hs.tree.key_free hl ha hk hb
      · intro he
        exact hb (List.cons_eq_cons.1 he).1
    have hdir : (g.tree root.names start h').IsDir (m.place root.names) := by
      rw [Tree.IsDir, hother]
      · exact hs.isDir hm List.suffix_rfl
      · exact (List.cons_ne_self _ _).symm
    obtain ⟨l, hr, ht, hml, hnel⟩ := hm.symlink_ok hg (hl.entries key mount source ha).1
      (m.destination ++ '/' :: mountBase mount) hfree hdir
    rw [if_pos hb]
    refine ⟨l, hr, ?_, hsrcs', hnel, ?_, ?_⟩
    · rw [ht]
      apply hs.tree.add hl ha hk
      · rw [Tree.make_of_ne, hmounted]
        intro he
        exact hb (List.cons_eq_cons.1 he).1.symm
      · intro _
        exact Tree.make_self hfree
      · intro x hx hx'
        rw [Tree.make_of_ne hx', hother x hx]
    · rw [hml, hlinks]
      apply List.nodup_cons.2
      refine ⟨?_, hs.links⟩
      intro hmem
      obtain ⟨k, hd, he⟩ := hs.made _ hmem
      exact hk (link_inj hm he ▸ hd)
    · rw [hml]
      exact List.forall_mem_cons.2 ⟨⟨key, List.mem_cons_self, rfl⟩, hmade⟩

/-- The bind mount of a cgroup path that is not mounted yet. -/
theorem LoopState.bind (hs : LoopState g root start real m cpath mounts done srcs h)
    (hg : g.Obliges root.names start real cpath) (hm : m.Placed root.names start)
    (hl : CgroupLayout cpath mounts) (hf : flags &&& MS_REMOUNT = 0)
    (ha : Attached cpath mounts key mount source) (hn : source ∉ srcs) :
    ∃ l, mountFrom g ⟨m.destination ++ '/' :: mountBase mount, "bind", source, []⟩ root.text
        (flags ||| MS_REC ||| MS_BIND) "" h = (.ok (), l) ∧
      g.tree root.names start l (mountBase mount :: m.place root.names) =
        some (.dir [(real source).text]) ∧
      (∀ x, x ≠ mountBase mount :: m.place root.names →
        g.tree root.names start l x = g.tree root.names start h x) ∧
      madeLinks l = madeLinks h ∧ l ≠ [] := by
  have hfree : g.tree root.names start h (mountBase mount :: m.place root.names) = none :=
    hs.tree.base_free hl ha fun k mt hr => hn ((hs.srcs source).2 ⟨k, mt, hr⟩)
  have habove (x : List Chars) (hx : x <:+ mountBase mount :: m.place root.names)
      (hne : x ≠ mountBase mount :: m.place root.names) : (g.tree root.names start h).IsDir x :=
    hs.isDir hm ((List.suffix_cons_iff.1 hx).resolve_left hne)
  have hlinks (x : List Chars) (hx : x <:+ mountBase mount :: m.place root.names) (text : Chars) :
      g.tree root.names start h x ≠ some (.link text) := by
    intro ht
    by_cases hne : x = mountBase mount :: m.place root.names
    · rw [hne, hfree] at ht
      cases ht
    · obtain ⟨ms, hd⟩ := habove x hx hne
      rw [hd] at ht
      cases ht
  have hp : Leads (root.text ++ (m.destination ++ '/' :: mountBase mount))
      (mountBase mount :: m.place root.names) :=
    hm.bind_leads (hl.entries key mount source ha).2
  obtain ⟨h', hsource, htree, hmade⟩ := mountSource_bind_ok
    (m := ⟨m.destination ++ '/' :: mountBase mount, "bind", source, []⟩) hp hg
    (hs.isDir hm List.nil_suffix) hlinks rfl hs.started ha.2
  have hmake : g.tree root.names start h' (mountBase mount :: m.place root.names) =
      some (.dir []) := by
    rw [htree]
    exact Tree.makeAll_of_none List.suffix_rfl hfree
  have hflags : (flags ||| MS_REC ||| MS_BIND) &&& MS_REMOUNT = 0 := noRemount_or hf rfl rfl
  obtain ⟨l, hr, ht, hml, hne⟩ := mountFrom_ok _ "" hp hg hflags hsource ⟨[], hmake⟩
  refine ⟨l, hr, ?_, ?_, hml.trans hmade, hne⟩
  · rw [ht]
    exact Tree.mount_self hmake
  · intro x hx
    rw [ht, htree]
    apply Tree.mount_makeAll_of_ne hfree _ _ hx
    · intro y hy hne
      obtain ⟨ms, hd⟩ := habove y hy hne
      rw [hd]
      exact Option.some_ne_none _
    · intro y hy hne
      exact hs.tree.deeper y _ hy hne

/-- A controller without a mount point or a cgroup path. -/
theorem LoopState.skip (hs : LoopState g root start real m cpath mounts done srcs h)
    (hno : ∀ mount source, ¬ Attached cpath mounts key mount source) :
    mountCgroup g m root.text flags cpath mounts srcs key h = (.ok srcs, h) ∧
      LoopState g root start real m cpath mounts (key :: done) srcs h := by
  have hsame (k mt s : Chars) :
      Entered cpath mounts done k mt s ↔ Entered cpath mounts (key :: done) k mt s :=
    (entered_cons_unattached hno k mt s).symm
  refine ⟨?_, hs.tree.congr hsame, ?_, hs.started, hs.links, hs.made_cons key⟩
  · rw [mountCgroup]
    cases hmt : mounts.lookup key with
    | none => rfl
    | some mount =>
      cases hsr : cpath.lookup key with
      | none => rfl
      | some source => exact absurd ⟨hmt, hsr⟩ (hno mount source)
  · intro s
    rw [hs.srcs]
    exact exists_congr fun k => exists_congr fun mt => hsame k mt s

theorem LoopState.step (hs : LoopState g root start real m cpath mounts done srcs h)
    (hg : g.Obliges root.names start real cpath) (hm : m.Placed root.names start)
    (hl : CgroupLayout cpath mounts) (hf : flags &&& MS_REMOUNT = 0) (hk : key ∉ done) :
    ∃ srcs' l, mountCgroup g m root.text flags cpath mounts srcs key h = (.ok srcs', l) ∧
      LoopState g root start real m cpath mounts (key :: done) srcs' l := by
  by_cases ha : ∃ mount source, Attached cpath mounts key mount source
  · obtain ⟨mount, source, ha⟩ := ha
    by_cases hin : source ∈ srcs
    · obtain ⟨k, mt, hr⟩ := (hs.srcs source).1 hin
      have hmounted := hs.tree.entries.mounted k mt source hr
      rw [hl.shared k key mt mount source hr.2 ha] at hmounted
      have hsrcs (s : Chars) : s ∈ srcs ↔ s = source ∨ s ∈ srcs :=
        ⟨.inr, fun hmem => hmem.elim (fun he => he ▸ hin) id⟩
      obtain ⟨l, hlink, hl'⟩ := hs.link hg hm hl ha hk hsrcs hmounted (fun _ _ => rfl) rfl
        hs.started
      refine ⟨srcs, l, ?_, hl'⟩
      rw [mountCgroup, ha.1, ha.2]
      dsimp only
      rw [if_pos hin, Act.bind_ok hlink]
      rfl
    · obtain ⟨l, hr, hmounted, hother, hmade, hne⟩ := hs.bind hg hm hl hf ha hin
      obtain ⟨l', hlink, hl'⟩ := hs.link hg hm hl ha hk (fun _ => List.mem_cons) hmounted hother
        hmade hne
      refine ⟨source :: srcs, l', ?_, hl'⟩
      rw [mountCgroup, ha.1, ha.2]
      dsimp only
      rw [if_neg hin, Act.bind_ok hr, Act.bind_ok hlink]
      rfl
  · have hno (mount source : Chars) : ¬ Attached cpath mounts key mount source :=
      fun h => ha ⟨mount, source, h⟩
    exact ⟨srcs, h, hs.skip hno⟩

theorem LoopState.run (hg : g.Obliges root.names start real cpath) (hm : m.Placed root.names start)
    (hl : CgroupLayout cpath mounts) (hf : flags &&& MS_REMOUNT = 0) {keys : List Chars}
    (hs : LoopState g root start real m cpath mounts done srcs h) (hk : keys.Nodup)
    (hd : ∀ key ∈ keys, key ∉ done) :
    ∃ srcs' l, keys.foldlM (mountCgroup g m root.text flags cpath mounts) srcs h =
        (.ok srcs', l) ∧
      LoopState g root start real m cpath mounts (keys.reverse ++ done) srcs' l := by
  induction keys generalizing done srcs h with
  | nil => exact ⟨srcs, h, rfl, hs⟩
  | cons key keys ih =>
    obtain ⟨hnot, hk⟩ := List.nodup_cons.1 hk
    obtain ⟨hdkey, hd⟩ := List.forall_mem_cons.1 hd
    obtain ⟨srcs', l, hstep, hs'⟩ := hs.step hg hm hl hf hdkey
    have hrest : ∀ k ∈ keys, k ∉ key :: done := by
      intro k hkmem hmem
      rcases List.mem_cons.1 hmem with rfl | hmem
      · exact hnot hkmem
      · exact hd k hkmem hmem
    obtain ⟨srcs'', l', hloop, hs''⟩ := ih hs' hk hrest
    refine ⟨srcs'', l', ?_, ?_⟩
    · rw [List.foldlM_cons, Act.bind_ok hstep]
      exact hloop
    · rw [List.reverse_cons, List.append_assoc]
      exact hs''

/-- The first mount of `mount_cgroups`, from which the loop starts. -/
theorem LoopState.first (hg : g.Obliges root.names start real cpath)
    (hm : m.Placed root.names start) (mounts : Table Chars Chars) :
    ∃ l, mountFrom g ⟨m.destination, "tmpfs", "tmpfs".toList, []⟩ root.text
        (MS_NOEXEC ||| MS_NOSUID ||| MS_NODEV) "" [] = (.ok (), l) ∧
      LoopState g root start real m cpath mounts [] [] l := by
  have hp := hm.leads
  have htype : "tmpfs" ≠ "bind" := by decide
  obtain ⟨h', hsource, htree, hmade⟩ := mountSource_other_ok
    ⟨m.destination, "tmpfs", "tmpfs".toList, []⟩ hp hg (h := []) hm.root hm.plain htype
  have hdir : (g.tree root.names start h').IsDir (m.place root.names) := by
    rw [htree]
    exact Tree.makeAll_isDir (hm.plain _ List.suffix_rfl) List.suffix_rfl
  have hflags : (MS_NOEXEC ||| MS_NOSUID ||| MS_NODEV) &&& MS_REMOUNT = 0 := rfl
  obtain ⟨l, hr, ht, hml, hne⟩ := mountFrom_ok ⟨m.destination, "tmpfs", "tmpfs".toList, []⟩ ""
    hp hg hflags hsource hdir
  have hbase : g.tree root.names start l = cgroupBase start (m.place root.names) := by
    rw [ht, htree]
    rfl
  have hlinks : madeLinks l = [] := hml.trans hmade
  refine ⟨l, hr, ⟨?_, ?_, hne, ?_, ?_⟩⟩
  · rw [hbase]
    exact CgroupTree.start fun x name hx => cgroupBase_below hm.plain hx
  · intro source
    constructor
    · intro hmem
      cases hmem
    · intro hex
      obtain ⟨k, mt, hmem, -⟩ := hex
      cases hmem
  · rw [hlinks]
    exact List.nodup_nil
  · rw [hlinks]
    intro link hmem
    cases hmem

/-- After the last controller the tree is that of all of them. -/
theorem LoopState.complete
    (hs : LoopState g root start real m cpath mounts (g.order.order mounts).reverse srcs h) :
    CgroupTree (cgroupBase start (m.place root.names)) (g.tree root.names start h)
      (m.place root.names) m.destination real (Attached cpath mounts) := by
  apply hs.tree.congr
  intro key mount source
  constructor
  · intro hr
    exact hr.2
  · intro ha
    refine ⟨?_, ha⟩
    rw [List.mem_reverse, g.order.mem_order]
    exact Finmap.mem_of_lookup_eq_some ha.1

/-- In whatever order the guest iterates the map, the loop ends with the tree of all controllers. -/
theorem mountCgroups_ok (hg : g.Obliges root.names start real cpath)
    (hm : m.Placed root.names start) (hl : CgroupLayout cpath mounts)
    (hf : flags &&& MS_REMOUNT = 0) :
    ∃ l, mountCgroups g m root.text flags cpath mounts [] = (.ok (), l) ∧
      CgroupTree (cgroupBase start (m.place root.names)) (g.tree root.names start l)
        (m.place root.names) m.destination real (Attached cpath mounts) ∧
      (madeLinks l).Nodup := by
  obtain ⟨h₁, htmpfs, hs₁⟩ := LoopState.first hg hm mounts
  obtain ⟨olddir, hdir⟩ := hg.getcwd h₁
  have hcwd : getcwd g h₁ = (.ok olddir, .getcwd :: h₁) := by
    rw [getcwd, ask, hdir]
  have hchdir (h : List RootfsCall) (dir : Chars) :
      perform g (.chdir dir) h = (.ok (), .chdir dir :: h) :=
    perform_ok (hg.fault _ _ trivial)
  have hs₂ : LoopState g root start real m cpath mounts [] []
      (.chdir root.text :: .getcwd :: h₁) :=
    (hs₁.call (tree_skip rfl) rfl).call (tree_skip rfl) rfl
  obtain ⟨srcs, h₂, hloop, hs₃⟩ := hs₂.run hg hm hl hf (g.order_nodup mounts)
    fun _ _ => List.not_mem_nil
  rw [List.append_nil] at hs₃
  have hs₄ := hs₃.call (c := .chdir olddir) (tree_skip rfl) rfl
  rw [mountCgroups, Act.bind_ok htmpfs, Act.bind_ok hcwd, Act.bind_ok (hchdir _ _),
    Act.bind_ok hloop, Act.bind_ok (hchdir _ _)]
  split
  · have hfault := hm.leads.mount_fault hg (hs₄.isDir hm List.suffix_rfl)
      (root.text ++ m.destination) none (flags ||| MS_BIND ||| MS_REMOUNT) none
    have hs₅ := hs₄.call (tree_remount g root.names start _ (root.text ++ m.destination)
      (root.text ++ m.destination) none (flags ||| MS_BIND) none) rfl
    exact ⟨_, perform_ok hfault, hs₅.complete, hs₅.links⟩
  · exact ⟨_, rfl, hs₄.complete, hs₄.links⟩

end

section
variable {t : RootfsTree} {root : Canonical} {m : Mount} {real : Chars → Canonical}
variable {cpath mounts : Table Chars Chars} {key mount source : Chars}

/-- A controller is reached by its name, as its mount or over its link. -/
theorem CgroupEntries.reached (ht : CgroupEntries t (m.place root.names) m.destination real
      (Attached cpath mounts))
    (hl : CgroupLayout cpath mounts) (ha : Attached cpath mounts key mount source) :
    t (t.inside root.names (key :: m.place root.names)) =
      some (.dir [(real source).text]) := by
  have hmounted := ht.mounted key mount source ha
  by_cases hb : key = mountBase mount
  · rw [← hb] at hmounted
    rw [RootfsTree.inside, hmounted]
    exact hmounted
  · rw [RootfsTree.inside, ht.linked key mount source ha hb]
    dsimp only
    rw [(hl.entries key mount source ha).2.walk]
    exact hmounted

end

/-- The tree where every call that has room takes effect. -/
def RootfsTree.run (rootfs : List Chars) (start : RootfsTree) (h : List RootfsCall) : RootfsTree :=
  h.foldr (fun c t => RootfsTree.call rootfs t c) start

/-- The call has what it needs at its place. -/
def RootfsTree.Fits (rootfs : List Chars) (t : RootfsTree) : RootfsCall → Prop
  | .mkdir dir => t (walk [] dir) = none
  | .symlink _ link => t (resolve rootfs link) = none
  | .mount (some _) target _ _ _ => t.IsDir (t.follow (resolve rootfs target))
  | _ => True

def RootfsTree.decideFits (rootfs : List Chars) (t : RootfsTree) :
    (c : RootfsCall) → Decidable (t.Fits rootfs c)
  | .mkdir dir => inferInstanceAs (Decidable (t (walk [] dir) = none))
  | .symlink _ link => inferInstanceAs (Decidable (t (resolve rootfs link) = none))
  | .mount (some _) target _ _ _ =>
    inferInstanceAs (Decidable (t.IsDir (t.follow (resolve rootfs target))))
  | .mount none _ _ _ _ => .isTrue trivial
  | .canonicalize _ => .isTrue trivial
  | .stat _ => .isTrue trivial
  | .getcwd => .isTrue trivial
  | .chdir _ => .isTrue trivial
  | .create _ => .isTrue trivial
  | .close => .isTrue trivial
  | .mknod _ _ _ _ => .isTrue trivial
  | .chown _ _ _ => .isTrue trivial
  | .remove _ => .isTrue trivial
  | .umask _ => .isTrue trivial

instance {rootfs : List Chars} {t : RootfsTree} {c : RootfsCall} : Decidable (t.Fits rootfs c) :=
  t.decideFits rootfs c

/-- A guest that keeps the tree, and iterates its maps from the key on. -/
def plainGuest (rootfs : List Chars) (start : RootfsTree) (key : Chars) : RootfsGuest where
  canonicalize h path :=
    if h = [] then .err (.io "No such file or directory (os error 2)") else .ok (lexical path)
  utf8 _ := true
  isFile _ _ := false
  present h dir := (RootfsTree.run rootfs start h (walk [] dir)).isSome
  getcwd _ := .ok ['/']
  umask _ := 0o022
  fault h c := if (RootfsTree.run rootfs start h).Fits rootfs c then none
    else some (.io "File exists (os error 17)")
  order := firstOrder key
  order_nodup := (permit ⟨[], List.forall_mem_nil _⟩ key).order_nodup
  rootfs_present path root h := by
    rw [if_pos rfl] at h
    cases h

section
variable {rootfs : List Chars} {start t : RootfsTree} {key : Chars} {h : List RootfsCall}
variable {c : RootfsCall}

theorem call_of_not_fits (hc : ¬ t.Fits rootfs c) : t.call rootfs c = t := by
  cases c with
  | mkdir dir => exact Tree.make_of_some hc
  | symlink original link => exact Tree.make_of_some hc
  | mount source target fstype flags data =>
    cases source with
    | none => rfl
    | some source =>
      rw [RootfsTree.call, Tree.mount_of_not_dir hc]
      exact ite_self _
  | canonicalize path => rfl
  | stat path => rfl
  | getcwd => rfl
  | chdir path => rfl
  | create path => rfl
  | close => rfl
  | mknod path kind mode dev => rfl
  | chown path uid gid => rfl
  | remove path => rfl
  | umask mode => rfl

theorem fits_of_allows (hc : t.Allows rootfs c) : t.Fits rootfs c := by
  cases c with
  | mkdir dir => exact hc.1
  | symlink original link => exact hc.1
  | mount source target fstype flags data =>
    cases source with
    | none => trivial
    | some source => exact hc
  | canonicalize path => trivial
  | stat path => trivial
  | getcwd => trivial
  | chdir path => trivial
  | create path => trivial
  | close => trivial
  | mknod path kind mode dev => trivial
  | chown path uid gid => trivial
  | remove path => trivial
  | umask mode => trivial

theorem plainGuest_tree :
    (plainGuest rootfs start key).tree rootfs start h = RootfsTree.run rootfs start h := by
  induction h with
  | nil => rfl
  | cons c h ih =>
    rw [RootfsGuest.tree, ih]
    have hrun : RootfsTree.run rootfs start (c :: h) =
        (RootfsTree.run rootfs start h).call rootfs c := rfl
    have hfault : (plainGuest rootfs start key).fault h c =
        if (RootfsTree.run rootfs start h).Fits rootfs c then none
    else some (.io "File exists (os error 17)") := rfl
    rw [hrun, hfault]
    by_cases hc : (RootfsTree.run rootfs start h).Fits rootfs c
    · rw [if_pos hc]
      rfl
    · rw [if_neg hc, call_of_not_fits hc]
      exact if_pos rfl

theorem plainGuest_obliges (cpath : Table Chars Chars) :
    (plainGuest rootfs start key).Obliges rootfs start lexical cpath where
  canonicalize _ _ _ _ _ := rfl
  utf8 _ _ _ := rfl
  isFile _ _ _ _ := rfl
  getcwd _ := ⟨_, rfl⟩
  present h dir _ := by
    rw [plainGuest_tree]
    rfl
  fault h c hc := by
    rw [plainGuest_tree] at hc
    exact if_pos (fits_of_allows hc)

end

def tableOf (l : List (Chars × Chars)) : Table Chars Chars :=
  l.foldr (fun e m => m.insert e.1 e.2) ∅

theorem of_lookup_tableOf {l : List (Chars × Chars)} {k a : Chars}
    (h : (tableOf l).lookup k = some a) : (k, a) ∈ l := by
  induction l with
  | nil => cases h
  | cons e l ih =>
    rcases Table.of_lookup_insert h with ⟨rfl, rfl⟩ | ⟨-, h⟩
    · exact List.mem_cons_self
    · exact List.mem_cons_of_mem _ (ih h)

theorem attached_tableOf {cpath mounts : List (Chars × Chars)} {key mount source : Chars}
    (h : Attached (tableOf cpath) (tableOf mounts) key mount source) :
    (key, mount) ∈ mounts ∧ (key, source) ∈ cpath :=
  ⟨of_lookup_tableOf h.1, of_lookup_tableOf h.2⟩

/-- What two entries of the lists for one controller, and two for another, have in common. -/
def ListPairs (cpath mounts : List (Chars × Chars))
    (P : Chars × Chars → Chars × Chars → Chars × Chars → Chars × Chars → Prop) : Prop :=
  ∀ x ∈ mounts, ∀ y ∈ cpath, x.1 = y.1 → ∀ x' ∈ mounts, ∀ y' ∈ cpath, x'.1 = y'.1 → P x y x' y'

theorem sharedMounts_tableOf {cpath mounts : List (Chars × Chars)}
    (h : ListPairs cpath mounts fun x y x' y' => y.2 = y'.2 → x.2 = x'.2) :
    SharedMounts (tableOf cpath) (tableOf mounts) := by
  intro key key' mount mount' source ha hb
  obtain ⟨hm, hs⟩ := attached_tableOf ha
  obtain ⟨hm', hs'⟩ := attached_tableOf hb
  exact h _ hm _ hs rfl _ hm' _ hs' rfl rfl

theorem distinctBases_tableOf {cpath mounts : List (Chars × Chars)}
    (h : ListPairs cpath mounts fun x y x' y' => mountBase x.2 = mountBase x'.2 → y.2 = y'.2) :
    DistinctBases (tableOf cpath) (tableOf mounts) := by
  intro key key' mount mount' source source' ha hb
  obtain ⟨hm, hs⟩ := attached_tableOf ha
  obtain ⟨hm', hs'⟩ := attached_tableOf hb
  exact h _ hm _ hs rfl _ hm' _ hs' rfl

theorem distinctNames_tableOf {cpath mounts : List (Chars × Chars)}
    (h : ListPairs cpath mounts fun x _ x' _ => x.1 = mountBase x'.2 → x.1 = mountBase x.2) :
    DistinctNames (tableOf cpath) (tableOf mounts) := by
  intro key mount source key' mount' source' ha hb
  obtain ⟨hm, hs⟩ := attached_tableOf ha
  obtain ⟨hm', hs'⟩ := attached_tableOf hb
  exact h _ hm _ hs rfl _ hm' _ hs' rfl

/-- Every order of the map leaves the same tree, in which every controller that has a cgroup path is
reached. -/
theorem mountCgroups_layout (g : RootfsGuest) (root : Canonical) (start : RootfsTree)
    (real : Chars → Canonical) (m : Mount) (flags : MsFlags) (cpath mounts : Table Chars Chars)
    (hg : g.Obliges root.names start real cpath) (hm : m.Placed root.names start)
    (hf : flags &&& MS_REMOUNT = 0) (hl : CgroupLayout cpath mounts) :
    ∃ l, mountCgroups g m root.text flags cpath mounts [] = (.ok (), l) ∧
      CgroupEntries (g.tree root.names start l) (m.place root.names) m.destination real
        (Attached cpath mounts) ∧
      (∀ key mount source, Attached cpath mounts key mount source →
        g.tree root.names start l
            ((g.tree root.names start l).inside root.names (key :: m.place root.names)) =
          some (.dir [(real source).text])) ∧
      (madeLinks l).Nodup ∧
      ∀ g' : RootfsGuest, g'.Obliges root.names start real cpath →
        g'.tree root.names start (mountCgroups g' m root.text flags cpath mounts []).2 =
          g.tree root.names start l := by
  obtain ⟨l, hr, ht, hlinks⟩ := mountCgroups_ok hg hm hl hf
  refine ⟨l, hr, ht.entries, ?_, hlinks, ?_⟩
  · intro key mount source ha
    exact ht.entries.reached hl ha
  · intro g' hg'
    obtain ⟨l', hr', ht', -⟩ := mountCgroups_ok hg' hm hl hf
    rw [hr']
    exact ht'.unique ht

/-- A rootfs in the root directory of the guest. -/
def bareRoot : Canonical := lexical "/r".toList

def bareTree : RootfsTree := fun place => if place <:+ bareRoot.names then some (.dir []) else none

def cgroupMount : Mount := ⟨"/c".toList, "cgroup", "cgroup".toList, []⟩

theorem cgroupMount_placed : cgroupMount.Placed bareRoot.names bareTree where
  accepted := by decide
  single := by decide
  root := ⟨[], rfl⟩
  plain x _ text := by
    rw [bareTree]
    split
    · intro h
      cases h
    · intro h
      cases h

def comountedPaths : List (Chars × Chars) :=
  [("cpu".toList, "/s/cpu,cpuacct/c1".toList), ("cpuacct".toList, "/s/cpu,cpuacct/c1".toList),
    ("memory".toList, "/s/memory/c1".toList)]

def comountedMounts : List (Chars × Chars) :=
  [("cpu".toList, "/s/cpu,cpuacct".toList), ("cpuacct".toList, "/s/cpu,cpuacct".toList),
    ("memory".toList, "/s/memory".toList)]

theorem comounted_entries : ∀ x ∈ comountedMounts, EntryName x.1 ∧ EntryName (mountBase x.2) := by
  decide

theorem comounted_layout : CgroupLayout (tableOf comountedPaths) (tableOf comountedMounts) where
  shared := sharedMounts_tableOf (by rw [ListPairs]; decide)
  apart := distinctBases_tableOf (by rw [ListPairs]; decide)
  named := distinctNames_tableOf (by rw [ListPairs]; decide)
  entries _ _ _ ha := comounted_entries _ (attached_tableOf ha).1

theorem mountCgroups_comounted : ∃ l,
    mountCgroups (plainGuest bareRoot.names bareTree "cpu".toList) cgroupMount bareRoot.text 0
      (tableOf comountedPaths) (tableOf comountedMounts) [] = (.ok (), l) ∧
    (madeLinks l).Nodup ∧
    (plainGuest bareRoot.names bareTree "cpuacct".toList).tree bareRoot.names bareTree
        (mountCgroups (plainGuest bareRoot.names bareTree "cpuacct".toList) cgroupMount
          bareRoot.text 0 (tableOf comountedPaths) (tableOf comountedMounts) []).2 =
      (plainGuest bareRoot.names bareTree "cpu".toList).tree bareRoot.names bareTree l := by
  obtain ⟨l, hr, -, -, hl, hsame⟩ := mountCgroups_layout
    (plainGuest bareRoot.names bareTree "cpu".toList) bareRoot bareTree lexical cgroupMount 0
    (tableOf comountedPaths) (tableOf comountedMounts) (plainGuest_obliges _) cgroupMount_placed
    rfl comounted_layout
  exact ⟨l, hr, hl, hsame _ (plainGuest_obliges _)⟩

/-- The mounts succeed, and leave the same tree, in every two orders. -/
def OneTree (cpath mounts : Table Chars Chars) : Prop :=
  ∀ g g' : RootfsGuest, g.Obliges bareRoot.names bareTree lexical cpath →
    g'.Obliges bareRoot.names bareTree lexical cpath →
      (mountCgroups g cgroupMount bareRoot.text 0 cpath mounts []).1 = .ok () ∧
      g.tree bareRoot.names bareTree
          (mountCgroups g cgroupMount bareRoot.text 0 cpath mounts []).2 =
        g'.tree bareRoot.names bareTree
          (mountCgroups g' cgroupMount bareRoot.text 0 cpath mounts []).2

/-- What the guest that starts with the key has at a place after the mounts. -/
def leftAt (key : Chars) (cpath mounts : List (Chars × Chars)) (place : List Chars) :
    Option (MountTrees.Node Chars Chars) :=
  RootfsTree.run bareRoot.names bareTree
    (mountCgroups (plainGuest bareRoot.names bareTree key) cgroupMount bareRoot.text 0
      (tableOf cpath) (tableOf mounts) []).2 place

theorem OneTree.leftAt_eq {cpath mounts : List (Chars × Chars)}
    (h : OneTree (tableOf cpath) (tableOf mounts)) (key key' : Chars) (place : List Chars) :
    leftAt key cpath mounts place = leftAt key' cpath mounts place := by
  have ht := (h (plainGuest bareRoot.names bareTree key) (plainGuest bareRoot.names bareTree key')
    (plainGuest_obliges _) (plainGuest_obliges _)).2
  rw [plainGuest_tree, plainGuest_tree] at ht
  exact congrFun ht place

/-- Two cgroup paths that need the same entry: the later one covers the earlier. -/
def sameBasePaths : List (Chars × Chars) :=
  [("a".toList, "/x/a".toList), ("b".toList, "/y/b".toList)]

def sameBaseMounts : List (Chars × Chars) :=
  [("a".toList, "/x/g".toList), ("b".toList, "/y/g".toList)]

/-- A controller whose name is the entry of another. -/
def sameNamePaths : List (Chars × Chars) :=
  [("a".toList, "/x/1".toList), ("g".toList, "/y/2".toList)]

def sameNameMounts : List (Chars × Chars) :=
  [("a".toList, "/x/g".toList), ("g".toList, "/y/h".toList)]

/-- A cgroup path whose entry is the destination itself. -/
def rootBasePaths : List (Chars × Chars) :=
  [("a".toList, "/1".toList), ("b".toList, "/y/2".toList)]

def rootBaseMounts : List (Chars × Chars) :=
  [("a".toList, "/".toList), ("b".toList, "/y/b".toList)]

theorem mountCgroups_not_oneTree :
    (¬ ∀ cpath mounts, SharedMounts cpath mounts → OneTree cpath mounts) ∧
    (¬ ∀ cpath mounts, SharedMounts cpath mounts → DistinctBases cpath mounts →
      OneTree cpath mounts) ∧
    ¬ ∀ cpath mounts, SharedMounts cpath mounts → DistinctBases cpath mounts →
      DistinctNames cpath mounts → OneTree cpath mounts := by
  refine ⟨?_, ?_, ?_⟩
  · intro h
    have hfree : OneTree (tableOf sameBasePaths) (tableOf sameBaseMounts) :=
      h _ _ (sharedMounts_tableOf (by rw [ListPairs]; decide))
    have hleft := hfree.leftAt_eq "a".toList "b".toList ["g".toList, "c".toList, "r".toList]
    have hne : leftAt "a".toList sameBasePaths sameBaseMounts
        ["g".toList, "c".toList, "r".toList] ≠
      leftAt "b".toList sameBasePaths sameBaseMounts
        ["g".toList, "c".toList, "r".toList] := by decide +kernel
    exact hne hleft
  · intro h
    have hfree : OneTree (tableOf sameNamePaths) (tableOf sameNameMounts) :=
      h _ _ (sharedMounts_tableOf (by rw [ListPairs]; decide))
        (distinctBases_tableOf (by rw [ListPairs]; decide))
    have hok := (hfree (plainGuest bareRoot.names bareTree "a".toList)
      (plainGuest bareRoot.names bareTree "a".toList) (plainGuest_obliges _)
      (plainGuest_obliges _)).1
    have herr : (mountCgroups (plainGuest bareRoot.names bareTree "a".toList) cgroupMount
        bareRoot.text 0 (tableOf sameNamePaths) (tableOf sameNameMounts) []).1 =
      .err (.io "File exists (os error 17)") := by decide +kernel
    rw [herr] at hok
    cases hok
  · intro h
    have hfree : OneTree (tableOf rootBasePaths) (tableOf rootBaseMounts) :=
      h _ _ (sharedMounts_tableOf (by rw [ListPairs]; decide))
        (distinctBases_tableOf (by rw [ListPairs]; decide))
        (distinctNames_tableOf (by rw [ListPairs]; decide))
    have hleft := hfree.leftAt_eq "a".toList "b".toList ["b".toList, "c".toList, "r".toList]
    have hne : leftAt "a".toList rootBasePaths rootBaseMounts
        ["b".toList, "c".toList, "r".toList] ≠
      leftAt "b".toList rootBasePaths rootBaseMounts
        ["b".toList, "c".toList, "r".toList] := by decide +kernel
    exact hne hleft

end KataAgent
