import KataAgent.CallLog
import KataAgent.RootfsSetup

namespace KataAgent
open Fallible TreePaths
set_option autoImplicit true

/-- The node that a call creates or mounts something on. A mount without a source mounts nothing: it
changes how the mounts that are there propagate. -/
def RootfsCall.touched (rootfs : List Chars) : RootfsCall → Option (List Chars)
  | .mount source target _ _ _ => source.map fun _ => resolve rootfs target
  | .mkdir dir => some (walk [] dir)
  | .create path => some (resolve rootfs path)
  | .symlink _ link => some (resolve rootfs link)
  | .mknod path _ _ _ => some (resolve rootfs path)
  | _ => none

/-- What the call touches has the property `Q`. -/
def RootfsCall.Keeps (rootfs : List Chars) (Q : List Chars → Prop) (c : RootfsCall) : Prop :=
  ∀ node, c.touched rootfs = some node → Q node

def RootfsSpec.canonicalRoot (g : RootfsGuest) (spec : RootfsSpec) :
    Outcome ErrorKind Canonical := do
  let root ← .ofUnwrap spec.root
  g.canonicalize [] root.path.toList

/-- The call touches nothing outside of the rootfs. -/
def RootfsCall.Confined (o : Outcome ErrorKind Canonical) (c : RootfsCall) : Prop :=
  ∀ node, match o with
    | .ok root => c.touched root.names = some node → root.names <:+ node
    | _ => c.touched [] ≠ some node

/-- The entries of a cgroup mount for a controller stay below its rootfs. -/
def EntryContained (destination key mount : Chars) : Prop :=
  Stays 0 (pathSteps (destination ++ '/' :: mountBase mount)) ∧
    (key ≠ mountBase mount → ¬ "//".toList <+: destination ++ ['/'] ∧
      Stays 0 (pathSteps (destination ++ '/' :: key)))

instance {destination key mount : Chars} : Decidable (EntryContained destination key mount) :=
  inferInstanceAs (Decidable (_ ∧ (_ → _ ∧ _)))

/-- Every cgroup mount before the first destination that is refused has contained entries for the
controllers that both maps have. -/
def RootfsSpec.Contained (spec : RootfsSpec) (cpath mounts : Table Chars Chars) : Prop :=
  spec.linux.isSome → spec.root.isSome → ∀ m ∈ spec.mounts.takeWhile (·.Accepted),
    m.fieldType = "cgroup" → ∀ key ∈ cpath, ∀ mount, mounts.lookup key = some mount →
      EntryContained m.destination key mount

section
variable {g : RootfsGuest} {rootfs : List Chars} {Q : List Chars → Prop} {c : RootfsCall}
variable {x : Setup Unit} {root : Canonical} {m : Mount} {flags : MsFlags} {data : String}
variable {cpath mounts : Table Chars Chars} {dest : Chars}

abbrev Touches (rootfs : List Chars) (Q : List Chars → Prop) (x : Setup α) : Prop :=
  Act.Logs (RootfsCall.Keeps rootfs Q) x

theorem RootfsCall.keeps_of_none (h : c.touched rootfs = none) : c.Keeps rootfs Q := by
  intro node hn
  cases h.symm.trans hn

theorem RootfsCall.keeps_of_some (h : c.touched rootfs = some node) (hq : Q node) :
    c.Keeps rootfs Q := by
  intro node' hn
  cases h.symm.trans hn
  exact hq

theorem ask_logs {P : RootfsCall → Prop} (hc : P c) (f : List RootfsCall → Outcome ErrorKind α) :
    Act.Logs P (ask c f) :=
  fun _ => ⟨[c], rfl, List.forall_mem_singleton.2 hc⟩

theorem withErrno_logs {P : RootfsCall → Prop} (hx : Act.Logs P x) : Act.Logs P (withErrno x) := by
  intro h
  have hs : (withErrno x h).2 = (x h).2 := by
    rw [withErrno]
    split
    · rename_i hr
      rw [hr]
    · rename_i hr
      rw [hr]
    · rename_i hr
      rw [hr]
  rw [hs]
  exact hx h

theorem createDirAll_logs {above rest : List (Step Chars)}
    (hd : ∀ dir, dir <+: rest →
      (∀ h, g.present h (above ++ dir) = true) ∨ Q (walk [] (above ++ dir))) :
    Touches rootfs Q (createDirAll g above rest) := by
  induction rest generalizing above with
  | nil => exact .pure ()
  | cons x rest ih =>
    have hrest : Touches rootfs Q (createDirAll g (above ++ [x]) rest) := by
      refine ih fun dir hdir => ?_
      rw [List.append_assoc]
      exact hd (x :: dir) (List.cons_prefix_cons.2 ⟨rfl, hdir⟩)
    rcases hd [x] (List.cons_prefix_cons.2 ⟨rfl, List.nil_prefix⟩) with hp | hq
    · have hskip : createDirAll g above (x :: rest) = createDirAll g (above ++ [x]) rest := by
        funext h
        rw [createDirAll, Act.bind_ok (Act.read_apply _), hp]
        rfl
      rw [hskip]
      exact hrest
    · refine (Act.Logs.read _).bind fun there => .bind ?_ fun made => ?_
      · split
        · exact .pure true
        · exact ask_logs (RootfsCall.keeps_of_some rfl hq) _
      · split
        · exact hrest
        · exact .pure ()

/-- A place for a mount: what is missing on the way to it, and the place itself, have the property.
-/
structure Place (g : RootfsGuest) (rootfs : List Chars) (Q : List Chars → Prop) (dest : Chars) :
    Prop where
  target : Q (resolve rootfs dest)
  above : ∀ dir, dir <+: pathSteps dest → (∀ h, g.present h dir = true) ∨ Q (walk [] dir)

theorem perform_logs (hc : c.Keeps rootfs Q) : Touches rootfs Q (perform g c) := ask_logs hc _

theorem prefix_of_mountDir {file : Bool} {dir : List (Step Chars)}
    (h : mountDir file dest = .ok dir) : dir <+: pathSteps dest := by
  rw [mountDir] at h
  split at h
  · split at h
    · cases h
    · cases h
      exact List.dropLast_prefix _
  · cases h
    exact List.prefix_rfl

theorem Place.createDirAll_logs (hp : Place g rootfs Q dest) {dir : List (Step Chars)}
    (hd : dir <+: pathSteps dest) : Touches rootfs Q (createDirAll g [] dir) :=
  KataAgent.createDirAll_logs fun _ hdir => hp.above _ (hdir.trans hd)

theorem mountSource_logs (hp : Place g rootfs Q dest) :
    Touches rootfs Q (mountSource g m dest) := by
  rw [mountSource]
  split
  · refine (ask_logs (RootfsCall.keeps_of_none rfl) _).bind fun src => ?_
    refine (ask_logs (RootfsCall.keeps_of_none rfl) _).bind fun file => ?_
    refine .lift_bind fun dir hdir => ?_
    refine (hp.createDirAll_logs (prefix_of_mountDir hdir)).bind fun _ => ?_
    refine (ask_logs (RootfsCall.keeps_of_none rfl) _).bind fun file => ?_
    refine .bind ?_ fun _ => .lift _
    split
    · exact ask_logs (RootfsCall.keeps_of_some rfl hp.target) _
    · exact .pure true
  · exact (hp.createDirAll_logs List.prefix_rfl).bind fun _ => .pure _

theorem mountFrom_logs {text : Chars} (hp : Place g rootfs Q (text ++ m.destination)) :
    Touches rootfs Q (mountFrom g m text flags data) := by
  refine (mountSource_logs hp).bind fun src => ?_
  refine (ask_logs (RootfsCall.keeps_of_none rfl) _).bind fun _ => ?_
  refine (withErrno_logs (perform_logs (RootfsCall.keeps_of_some rfl hp.target))).bind fun _ => ?_
  split
  · exact withErrno_logs (perform_logs (RootfsCall.keeps_of_some rfl hp.target))
  · exact .pure ()

/-- The entries of a cgroup mount have places with the property. -/
structure EntryPlace (g : RootfsGuest) (rootfs : List Chars) (Q : List Chars → Prop)
    (text destination key mount : Chars) : Prop where
  bind : Place g rootfs Q (text ++ (destination ++ '/' :: mountBase mount))
  link : key ≠ mountBase mount → Q (resolve rootfs (destination ++ '/' :: key).tail)

theorem mountCgroup_logs {text key : Chars} {srcs : List Chars} (he : ∀ mount,
      mounts.lookup key = some mount → key ∈ cpath →
        EntryPlace g rootfs Q text m.destination key mount) :
    Touches rootfs Q (mountCgroup g m text flags cpath mounts srcs key) := by
  rw [mountCgroup]
  split
  case h_1 mount source hm hs =>
    have hplace := he mount hm (Finmap.mem_of_lookup_eq_some hs)
    have hlink : Touches rootfs Q (linkController g m.destination key (mountBase mount)) := by
      rw [linkController]
      split
      · rename_i hk
        exact perform_logs (RootfsCall.keeps_of_some rfl (hplace.link hk))
      · exact .pure ()
    dsimp only
    split
    · exact hlink.bind fun _ => .pure _
    · refine (mountFrom_logs hplace.bind).bind fun _ => ?_
      exact hlink.bind fun _ => .pure _
  case h_2 => exact .pure _

theorem mountCgroups_logs {text : Chars} (hp : Place g rootfs Q (text ++ m.destination))
    (he : ∀ key mount, mounts.lookup key = some mount → key ∈ cpath →
      EntryPlace g rootfs Q text m.destination key mount) :
    Touches rootfs Q (mountCgroups g m text flags cpath mounts) := by
  refine (mountFrom_logs (m := ⟨m.destination, "tmpfs", "tmpfs".toList, []⟩) hp).bind fun _ => ?_
  refine (ask_logs (RootfsCall.keeps_of_none rfl) _).bind fun olddir => ?_
  refine (perform_logs (RootfsCall.keeps_of_none rfl)).bind fun _ => ?_
  refine (Act.Logs.foldlM (fun srcs key _ => mountCgroup_logs (he key)) []).bind fun _ => ?_
  refine (perform_logs (RootfsCall.keeps_of_none rfl)).bind fun _ => ?_
  split
  · exact perform_logs (RootfsCall.keeps_of_some rfl hp.target)
  · exact .pure ()

theorem mountOne_logs {text : Chars} (hp : m.Accepted → Place g rootfs Q (text ++ m.destination))
    (he : m.Accepted → m.fieldType = "cgroup" → ∀ key mount, mounts.lookup key = some mount →
      key ∈ cpath → EntryPlace g rootfs Q text m.destination key mount) :
    Touches rootfs Q (mountOne g text cpath mounts m) := by
  rw [mountOne]
  dsimp only
  split
  · exact .lift _
  · rename_i ha
    rw [not_not] at ha
    split
    · rename_i hc
      exact mountCgroups_logs (hp ha) (he ha hc)
    · exact mountFrom_logs (hp ha)

/-- A path of the container's own that the setup takes from its working directory. -/
def Relative (path : Chars) : Prop := path.head? ≠ some '/' ∧ ¬ "..".toList <:+: path

instance {path : Chars} : Decidable (Relative path) := inferInstanceAs (Decidable (_ ∧ _))

theorem link_logs {original dst : String} (hq : ∀ path, Relative path → Q (resolve rootfs path))
    (hr : Relative dst.toList) : Touches rootfs Q (link g original dst) :=
  perform_logs (RootfsCall.keeps_of_some rfl (hq _ hr))

theorem defaultSymlinks_logs (hq : ∀ path, Relative path → Q (resolve rootfs path)) :
    Touches rootfs Q (defaultSymlinks g) := by
  have hall : ∀ l ∈ SYMLINKS, Relative l.2.toList := by decide
  refine (Act.Logs.read _).bind fun kcore => .bind ?_ fun _ => ?_
  · split
    · exact link_logs hq (by decide)
    · exact .pure ()
  · exact .forM fun l hl => link_logs hq (hall l hl)

theorem createDevice_logs {bind : Bool} {dev : LinuxDevice}
    (hq : Q (resolve rootfs dev.path.toList.tail)) :
    Touches rootfs Q (createDevice g bind dev) := by
  rw [createDevice]
  split
  · refine (perform_logs (RootfsCall.keeps_of_some rfl hq)).bind fun _ => ?_
    refine (perform_logs (RootfsCall.keeps_of_none rfl)).bind fun _ => ?_
    exact perform_logs (RootfsCall.keeps_of_some rfl hq)
  · rw [mknodDev]
    split
    · refine (perform_logs (RootfsCall.keeps_of_some rfl hq)).bind fun _ => ?_
      exact perform_logs (RootfsCall.keeps_of_none rfl)
    · exact .lift _

theorem relative_of_dev {path : String} (hs : startsWith path "/dev") (hc : ¬ contains path "..") :
    Relative path.toList.tail := by
  obtain ⟨rest, hr⟩ := hs
  rw [contains] at hc
  rw [← hr] at hc ⊢
  refine ⟨?_, fun h => hc (h.trans (List.tail_suffix _).isInfix)⟩
  change some 'd' ≠ some '/'
  decide

theorem createDevices_logs {devices : List LinuxDevice} {bind : Bool}
    (hq : ∀ path, Relative path → Q (resolve rootfs path)) :
    Touches rootfs Q (createDevices g devices bind) := by
  have hall : ∀ dev ∈ DEFAULT_DEVICES, Relative dev.path.toList.tail := by decide
  have hmask (mode : Nat) : Touches rootfs Q (umask g mode) :=
    ask_logs (RootfsCall.keeps_of_none rfl) _
  refine (hmask 0).bind fun old => ?_
  refine Act.Logs.bind (.forM fun dev hd => createDevice_logs (hq _ (hall dev hd))) fun _ => ?_
  refine Act.Logs.bind (.forM fun dev _ => ?_) fun _ => (hmask old).bind fun _ => .pure _
  split
  · exact .lift _
  · rename_i h
    rw [not_or, not_not] at h
    exact createDevice_logs (hq _ (relative_of_dev h.1 h.2))

theorem ensurePtmx_logs (hq : ∀ path, Relative path → Q (resolve rootfs path)) :
    Touches rootfs Q (ensurePtmx g) :=
  (ask_logs (RootfsCall.keeps_of_none rfl) _).bind fun _ => link_logs hq (by decide)

theorem toStr_bind_logs {f : Chars → Setup α} (hf : Touches rootfs Q (f root.text)) :
    Touches rootfs Q (toStr g root >>= f) := by
  refine .lift_bind fun text ht => ?_
  split at ht
  · cases ht
    exact hf
  · cases ht

theorem populateRootfs_logs {linux : RootfsLinux} {text : Chars} {bindDevice : Bool}
    (hq : ∀ path, Relative path → Q (resolve rootfs path)) :
    Touches rootfs Q (populateRootfs g linux text bindDevice) := by
  refine (ask_logs (RootfsCall.keeps_of_none rfl) _).bind fun olddir => ?_
  refine (perform_logs (RootfsCall.keeps_of_none rfl)).bind fun _ => ?_
  refine (defaultSymlinks_logs hq).bind fun _ => (createDevices_logs hq).bind fun _ => ?_
  exact (ensurePtmx_logs hq).bind fun _ => perform_logs (RootfsCall.keeps_of_none rfl)

theorem fillRootfs_logs {linux : RootfsLinux} {ms : List Mount} {bindDevice : Bool}
    (hroot : Q root.names) (hq : ∀ path, Relative path → Q (resolve root.names path))
    (hm : Touches root.names Q (ms.forM (mountOne g root.text cpath mounts))) :
    Touches root.names Q (fillRootfs g linux ms root cpath mounts bindDevice) := by
  have htarget : RootfsCall.Keeps root.names Q
      (.mount (some root.text) root.text none (MS_BIND ||| MS_REC) none) := by
    refine RootfsCall.keeps_of_some rfl ?_
    rw [root.resolve_text]
    exact hroot
  refine toStr_bind_logs ?_
  refine (perform_logs (RootfsCall.keeps_of_none rfl)).bind fun _ => ?_
  exact (perform_logs htarget).bind fun _ => hm.bind fun _ => populateRootfs_logs hq

end

section
variable {g : RootfsGuest} {root : Canonical} {m : Mount} {path p key mount destination : Chars}

theorem up_notMem (h : ¬ "..".toList <:+: p) : .up ∉ pathSteps p :=
  fun hm => h (infix_of_up_mem hm)

theorem Relative.suffix (h : Relative p) : root.names <:+ resolve root.names p := by
  rw [resolve_relative h.1]
  exact Stays.suffix [] (.of_up_notMem (up_notMem h.2))

theorem Place.of_stays (hg : g.canonicalize [] path = .ok root) (hs : Stays 0 (pathSteps p)) :
    Place g root.names (root.names <:+ ·) (root.text ++ '/' :: p) where
  target := by
    rw [root.resolve_append]
    exact hs.suffix []
  above dir hd := by
    rw [pathSteps_append_slash] at hd
    rcases List.prefix_or_prefix_of_prefix hd (List.prefix_append _ _) with hr | hr
    · exact .inl fun h => g.rootfs_present path root hg h dir hr
    · obtain ⟨rest, rfl⟩ := hr
      refine .inr ?_
      rw [walk_append, root.pathSteps_text, walk_down, List.append_nil]
      exact Stays.suffix [] (hs.of_prefix ((List.prefix_append_right_inj _).1 hd))

theorem Mount.Accepted.place (ha : m.Accepted) (hg : g.canonicalize [] path = .ok root) :
    Place g root.names (root.names <:+ ·) (root.text ++ m.destination) := by
  obtain ⟨p, hp⟩ := List.head?_eq_some_iff.1 ha.1
  have hs : Stays 0 (pathSteps p) := by
    refine .of_up_notMem ?_
    rw [← pathSteps_cons_slash, ← hp]
    exact up_notMem ha.2
  rw [hp]
  exact .of_stays hg hs

theorem doubleSlash_iff :
    "//".toList <+: '/' :: p ++ ['/'] ↔ (p ++ '/' :: key).head? = some '/' := by
  cases p with
  | nil => simp
  | cons c p => simp [eq_comm]

theorem EntryContained.place (he : EntryContained ('/' :: destination) key mount)
    (hg : g.canonicalize [] path = .ok root) :
    EntryPlace g root.names (root.names <:+ ·) root.text ('/' :: destination) key mount where
  bind := by
    refine .of_stays hg ?_
    have hs := he.1
    rwa [List.cons_append, pathSteps_cons_slash] at hs
  link hk := by
    obtain ⟨hd, hs⟩ := he.2 hk
    rw [List.cons_append, List.tail_cons, resolve_relative (mt doubleSlash_iff.2 hd)]
    rw [List.cons_append, pathSteps_cons_slash] at hs
    exact hs.suffix []

theorem mountOne_refused {text : Chars} {cpath mounts : Table Chars Chars}
    (h : decide m.Accepted = false) :
    mountOne g text cpath mounts m = Act.fail (ErrorKind.nix Errno.EINVAL) :=
  if_pos (of_decide_eq_false h)

section
variable {spec : RootfsSpec} {cpath mounts : Table Chars Chars} {linux : RootfsLinux} {r : Root}
variable {bindDevice : Bool} {c : RootfsCall}

theorem initRootfs_canonical (hl : spec.linux = some linux) (hr : spec.root = some r)
    (hc : g.canonicalize [] r.path.toList = .ok root) :
    initRootfs g spec cpath mounts bindDevice [] =
      fillRootfs g linux spec.mounts root cpath mounts bindDevice
        [.canonicalize r.path.toList] := by
  rw [initRootfs, hl, hr]
  change (canonicalize g r.path.toList >>= _) [] = _
  rw [Act.bind_ok (a := root)]
  rw [canonicalize, ask, hc]

/-- A setup that gets no canonical rootfs makes at most one call. -/
theorem initRootfs_early (hc : ∀ root, spec.canonicalRoot g ≠ .ok root)
    (h : c ∈ (initRootfs g spec cpath mounts bindDevice []).2) :
    ∃ path, c = .canonicalize path := by
  cases hl : spec.linux with
  | none =>
    rw [initRootfs, hl] at h
    cases h
  | some linux =>
    cases hr : spec.root with
    | none =>
      rw [initRootfs, hl, hr] at h
      cases h
    | some r =>
      rw [RootfsSpec.canonicalRoot, hr] at hc
      have hno : ∀ root, (canonicalize g r.path.toList []).1 ≠ .ok root := hc
      rw [initRootfs, hl, hr] at h
      change c ∈ ((canonicalize g r.path.toList >>= _) []).2 at h
      rw [(Act.bind_not_ok hno).2] at h
      exact ⟨_, List.mem_singleton.1 h⟩

theorem RootfsCall.confined_canonicalize {o : Outcome ErrorKind Canonical} :
    RootfsCall.Confined o (.canonicalize path) := by
  intro node
  cases o with
  | ok root => exact nofun
  | err e => exact nofun
  | panic => exact nofun

theorem RootfsSpec.Contained.mounts_logs (hs : spec.Contained cpath mounts)
    (hl : spec.linux = some linux) (hr : spec.root = some r)
    (hc : g.canonicalize [] path = .ok root) :
    Touches root.names (root.names <:+ ·)
      (spec.mounts.forM (mountOne g root.text cpath mounts)) := by
  refine .forM_takeWhile (fun m hm => mountOne_logs (fun ha => ha.place hc) ?_)
    (fun m => mountOne_refused)
  intro ha hcgroup key mount hmount hkey
  have he := hs (hl ▸ rfl) (hr ▸ rfl) m hm hcgroup key hkey mount hmount
  obtain ⟨p, hp⟩ := List.head?_eq_some_iff.1 ha.1
  rw [hp] at he ⊢
  exact he.place hc

/-- A setup whose entries are contained touches nothing outside of the rootfs. -/
theorem RootfsSpec.Contained.confined (hs : spec.Contained cpath mounts)
    (h : c ∈ (initRootfs g spec cpath mounts bindDevice []).2) :
    c.Confined (spec.canonicalRoot g) := by
  by_cases hc : ∃ root, spec.canonicalRoot g = .ok root
  · obtain ⟨root, hroot⟩ := hc
    cases hl : spec.linux with
    | none =>
      rw [initRootfs, hl] at h
      cases h
    | some linux =>
      obtain ⟨r, hr, hcanon⟩ := Outcome.bind_eq_ok.1 hroot
      cases hs' : spec.root with
      | none =>
        rw [hs'] at hr
        cases hr
      | some r' =>
        rw [hs'] at hr
        cases hr
        have hlogs : Touches root.names (root.names <:+ ·)
            (fillRootfs g linux spec.mounts root cpath mounts bindDevice) :=
          fillRootfs_logs List.suffix_rfl (fun p => Relative.suffix) (hs.mounts_logs hl hs' hcanon)
        obtain ⟨new, hnew, hkeeps⟩ := hlogs [.canonicalize r.path.toList]
        rw [initRootfs_canonical hl hs' hcanon, hnew] at h
        rcases List.mem_append.1 h with h | h
        · rw [hroot]
          exact hkeeps c h
        · rw [List.mem_singleton.1 h]
          exact RootfsCall.confined_canonicalize
  · obtain ⟨path, rfl⟩ := initRootfs_early (fun root hr => hc ⟨root, hr⟩) h
    exact RootfsCall.confined_canonicalize

end

end

end KataAgent
