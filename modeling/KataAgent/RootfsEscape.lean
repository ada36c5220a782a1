import KataAgent.RootfsConfinement

namespace KataAgent
open Fallible TreePaths
set_option autoImplicit true

/-- An order of the keys that starts with one of them. -/
def firstOrder (key : Chars) : HashOrder where
  order m := if key ∈ m then key :: sortedKeys (m.keys.erase key) else sortedKeys m.keys
  mem_order m k := by
    split
    case isTrue h =>
      by_cases hk : k = key
      · simp [hk, h]
      · simp [hk, mem_sortedKeys, Finmap.mem_keys]
    case isFalse h => rw [mem_sortedKeys, Finmap.mem_keys]

/-- A guest where every call succeeds and nothing is missing. -/
def permit (root : Canonical) (key : Chars) : RootfsGuest where
  canonicalize _ _ := .ok root
  utf8 _ := true
  isFile _ _ := false
  present _ _ := true
  getcwd _ := .ok ['/']
  umask _ := 0o022
  fault _ _ := none
  order := firstOrder key
  order_nodup m := by
    unfold firstOrder
    dsimp only
    split
    · exact List.nodup_cons.2 ⟨by simp [mem_sortedKeys], Finset.sort_nodup _ _⟩
    · exact Finset.sort_nodup _ _
  rootfs_present _ _ _ _ _ _ := rfl

section
variable {root : Canonical} {first : Chars} {m : Mount} {flags : MsFlags} {data : String}
variable {cpath mounts : Table Chars Chars} {text : Chars}

theorem perform_ensures (c : RootfsCall) :
    Act.Ensures (fun _ => True) (perform (permit root first) c) :=
  fun h => ⟨(), c :: h, rfl, trivial⟩

theorem getcwd_ensures : Act.Ensures (fun _ => True) (getcwd (permit root first)) :=
  fun h => ⟨_, .getcwd :: h, rfl, trivial⟩

theorem withErrno_ensures (c : RootfsCall) :
    Act.Ensures (fun _ => True) (withErrno (perform (permit root first) c)) :=
  fun h => ⟨(), c :: h, rfl, trivial⟩

theorem createDirAll_ensures (above rest : List (Step Chars)) :
    Act.Ensures (fun _ => True) (createDirAll (permit root first) above rest) := by
  induction rest generalizing above with
  | nil => exact .pure trivial
  | cons x rest ih => exact ih (above ++ [x])

theorem mountSource_ensures (dest : Chars) :
    Act.Ensures (fun src => m.fieldType = "bind" → src = root.text)
      (mountSource (permit root first) m dest) := by
  rw [mountSource]
  split
  · have hcanon (path : Chars) :
        Act.Ensures (· = root) (canonicalize (permit root first) path) :=
      fun h => ⟨root, .canonicalize path :: h, rfl, rfl⟩
    have hfile (src : Canonical) : Act.Ensures (· = false) (isFile (permit root first) src) :=
      fun h => ⟨false, .stat src.text :: h, rfl, rfl⟩
    refine (hcanon _).bind fun src hsrc => (hfile src).bind fun file hf => ?_
    subst hsrc
    subst hf
    have hdir : Act.Ensures (fun _ => True) (Act.lift (mountDir false dest) : Setup _) :=
      fun h => ⟨pathSteps dest, h, rfl, trivial⟩
    refine hdir.bind fun dir _ => (createDirAll_ensures [] dir).bind fun _ _ => ?_
    refine (hfile _).bind fun file hf => ?_
    subst hf
    exact fun h => ⟨_, h, rfl, fun _ => rfl⟩
  · rename_i hb
    refine (createDirAll_ensures [] (pathSteps dest)).bind fun _ _ => .pure fun h => absurd h hb

theorem tryStat_ensures (path : Chars) :
    Act.Ensures (fun _ => True) (tryStat (permit root first) path) :=
  fun h => ⟨(), .stat path :: h, rfl, trivial⟩

theorem mountFrom_ensures :
    Act.Ensures (fun _ => True) (mountFrom (permit root first) m text flags data) := by
  refine (mountSource_ensures _).bind fun src _ => (tryStat_ensures _).bind fun _ _ => ?_
  refine (withErrno_ensures _).bind fun _ _ => ?_
  split
  · exact withErrno_ensures _
  · exact .pure trivial

theorem linkController_ensures (destination key base : Chars) :
    Act.Ensures (fun _ => True) (linkController (permit root first) destination key base) := by
  rw [linkController]
  split
  · exact perform_ensures _
  · exact .pure trivial

theorem mountCgroup_ensures (srcs : List Chars) (key : Chars) :
    Act.Ensures (fun _ => True)
      (mountCgroup (permit root first) m text flags cpath mounts srcs key) := by
  rw [mountCgroup]
  split
  · dsimp only
    split
    · exact (linkController_ensures _ _ _).bind fun _ _ => .pure trivial
    · refine mountFrom_ensures.bind fun _ _ => ?_
      exact (linkController_ensures _ _ _).bind fun _ _ => .pure trivial
  · exact .pure trivial

theorem mountCgroups_ensures :
    Act.Ensures (fun _ => True)
      (mountCgroups (permit root first) m text flags cpath mounts) := by
  refine mountFrom_ensures.bind fun _ _ => getcwd_ensures.bind fun _ _ => ?_
  refine (perform_ensures _).bind fun _ _ => ?_
  refine (Act.Ensures.foldlM mountCgroup_ensures []).bind fun _ _ => ?_
  refine (perform_ensures _).bind fun _ _ => ?_
  split
  · exact perform_ensures _
  · exact .pure trivial

theorem mountOne_ensures (ha : m.Accepted) :
    Act.Ensures (fun _ => True) (mountOne (permit root first) text cpath mounts m) := by
  rw [mountOne]
  dsimp only
  rw [if_neg (not_not.2 ha)]
  split
  · exact mountCgroups_ensures
  · exact mountFrom_ensures

theorem ask_reaches (c : RootfsCall) (f : List RootfsCall → Outcome ErrorKind α) :
    Act.Reaches c (ask c f) := fun _ => List.mem_cons_self

theorem Place.any {g : RootfsGuest} {rootfs : List Chars} {dest : Chars} :
    Place g rootfs (fun _ => True) dest := ⟨trivial, fun _ _ => .inr trivial⟩

theorem EntryPlace.any {g : RootfsGuest} {rootfs : List Chars} {destination key mount : Chars} :
    EntryPlace g rootfs (fun _ => True) text destination key mount := ⟨.any, fun _ => trivial⟩

theorem grows_of_touches {x : Setup α} (hx : Touches [] (fun _ => True) x) : Act.Grows x :=
  hx.mono fun _ _ => trivial

theorem perform_grows {g : RootfsGuest} (c : RootfsCall) : Act.Grows (perform g c) :=
  grows_of_touches (perform_logs fun _ _ => trivial)

theorem linkController_grows {g : RootfsGuest} {destination key base : Chars} :
    Act.Grows (linkController g destination key base) := by
  rw [linkController]
  split
  · exact perform_grows _
  · exact .pure ()

theorem mountCgroup_grows {g : RootfsGuest} {srcs : List Chars} {key : Chars} :
    Act.Grows (mountCgroup g m text flags cpath mounts srcs key) :=
  grows_of_touches (mountCgroup_logs fun _ _ _ => EntryPlace.any)

theorem mountOne_grows {g : RootfsGuest} : Act.Grows (mountOne g text cpath mounts m) :=
  grows_of_touches (mountOne_logs (fun _ => .any) fun _ _ _ _ _ _ => .any)

theorem mountFrom_reaches (hb : m.fieldType = "bind") :
    Act.Reaches (.mount (some root.text) (text ++ m.destination) (some "bind") flags (some data))
      (mountFrom (permit root first) m text flags data) := by
  refine .bind_right (mountSource_ensures _) fun src hsrc => ?_
  refine .bind_right (tryStat_ensures _) fun _ _ => ?_
  rw [hsrc hb, hb]
  refine .bind_left ?_ fun _ => ?_
  · exact fun h => List.mem_cons_self
  · split
    · exact withErrno_logs (perform_grows _)
    · exact .pure ()

section
variable {key mount : Chars} {c : RootfsCall}

theorem mountCgroup_reaches_mount (hm : mounts.lookup key = some mount) (hk : key ∈ cpath) :
    Act.Reaches (.mount (some root.text) (text ++ (m.destination ++ '/' :: mountBase mount))
        (some "bind") (flags ||| MS_REC ||| MS_BIND) (some ""))
      (mountCgroup (permit root first) m text flags cpath mounts [] key) := by
  obtain ⟨source, hs⟩ := Finmap.mem_iff.1 hk
  rw [mountCgroup]
  rw [hm, hs]
  dsimp only
  rw [if_neg List.not_mem_nil]
  refine (mountFrom_reaches rfl).bind_left fun _ => ?_
  exact linkController_grows.bind fun _ => .pure _

theorem mountCgroup_reaches_link (hm : mounts.lookup key = some mount) (hk : key ∈ cpath)
    (hne : key ≠ mountBase mount) :
    Act.Reaches
      (.symlink (m.destination ++ '/' :: mountBase mount) (m.destination ++ '/' :: key).tail)
      (mountCgroup (permit root first) m text flags cpath mounts [] key) := by
  obtain ⟨source, hs⟩ := Finmap.mem_iff.1 hk
  rw [mountCgroup]
  rw [hm, hs]
  dsimp only
  rw [if_neg List.not_mem_nil]
  refine .bind_right mountFrom_ensures fun _ _ => ?_
  refine .bind_left ?_ fun _ => .pure _
  rw [linkController]
  rw [if_pos hne]
  exact ask_reaches _ _

theorem mountCgroups_reaches (hk : key ∈ mounts)
    (hc : Act.Reaches c (mountCgroup (permit root key) m text flags cpath mounts [] key)) :
    Act.Reaches c (mountCgroups (permit root key) m text flags cpath mounts) := by
  have horder : (permit root key).order.order mounts = key :: sortedKeys (mounts.keys.erase key) :=
    if_pos hk
  refine .bind_right mountFrom_ensures fun _ _ => .bind_right getcwd_ensures fun _ _ => ?_
  refine .bind_right (perform_ensures _) fun _ _ => ?_
  rw [horder]
  refine .bind_left ?_ fun _ => ?_
  · exact hc.bind_left fun srcs =>
      .foldlM (fun _ _ _ => mountCgroup_grows) srcs
  · refine (perform_grows _).bind fun _ => ?_
    split
    · exact perform_grows _
    · exact .pure ()

theorem mountOne_reaches (ha : m.Accepted) (ht : m.fieldType = "cgroup") (hk : key ∈ mounts)
    (hc : Act.Reaches c
      (mountCgroup (permit root key) m text (parseMount m).1 cpath mounts [] key)) :
    Act.Reaches c (mountOne (permit root key) text cpath mounts m) := by
  rw [mountOne]
  dsimp only
  rw [if_neg (not_not.2 ha), if_pos ht]
  exact mountCgroups_reaches hk hc

theorem Mount.Accepted.of_mem_takeWhile {ms : List Mount} (h : m ∈ ms.takeWhile (·.Accepted)) :
    m.Accepted :=
  of_decide_eq_true (List.mem_takeWhile_imp (p := fun m : Mount => decide m.Accepted) h)

/-- The setup in this guest makes the calls of every cgroup mount before the first destination that
is refused. -/
theorem initRootfs_reaches {spec : RootfsSpec} {bindDevice : Bool} (hl : spec.linux.isSome)
    (hr : spec.root.isSome) (hmem : m ∈ spec.mounts.takeWhile (·.Accepted))
    (ht : m.fieldType = "cgroup") (hk : key ∈ mounts)
    (hc : Act.Reaches c
      (mountCgroup (permit root key) m root.text (parseMount m).1 cpath mounts [] key)) :
    c ∈ (initRootfs (permit root key) spec cpath mounts bindDevice []).2 := by
  obtain ⟨linux, hl⟩ := Option.isSome_iff_exists.1 hl
  obtain ⟨r, hr⟩ := Option.isSome_iff_exists.1 hr
  have hp := Mount.Accepted.of_mem_takeWhile hmem
  have hms : Act.Reaches c
      (spec.mounts.forM (mountOne (permit root key) root.text cpath mounts)) := by
    exact .forM_takeWhile hmem
      (fun m hm => mountOne_ensures (of_decide_eq_true hm)) (fun m => mountOne_grows)
      (mountOne_reaches hp ht hk hc)
  have hfill : Act.Reaches c
      (fillRootfs (permit root key) linux spec.mounts root cpath mounts bindDevice) := by
    have htext : Act.Ensures (· = root.text) (toStr (permit root key) root) :=
      fun h => ⟨root.text, h, rfl, rfl⟩
    refine .bind_right htext fun text ht => ?_
    rw [ht]
    refine .bind_right (perform_ensures _) fun _ _ => .bind_right (perform_ensures _) fun _ _ => ?_
    exact hms.bind_left
      fun _ => grows_of_touches (populateRootfs_logs fun _ _ => trivial)
  rw [initRootfs_canonical hl hr rfl]
  exact hfill _

end

end

/-- A rootfs whose name is too long to be in a path of the length. -/
def freshName (length : Nat) : Chars := List.replicate (length + 1) 'a'

def freshRoot (length : Nat) : Canonical where
  names := [freshName length]
  names_ok := by
    refine List.forall_mem_singleton.2 ⟨rfl, fun h => ?_⟩
    exact absurd (List.eq_of_mem_replicate h) (by decide)

theorem freshName_notMem (p : Chars) : .down (freshName p.length) ∉ pathSteps p := by
  intro h
  have hlen := (infix_of_down_mem h).length_le
  rw [freshName, List.length_replicate] at hlen
  omega

/-- A path that ends below each rootfs it starts from never leaves it. -/
theorem stays_of_fresh {p : Chars}
    (h : [freshName p.length] <:+ walk [freshName p.length] (pathSteps p)) :
    Stays 0 (pathSteps p) :=
  Stays.of_suffix [] (freshName_notMem p) h

section
variable {spec : RootfsSpec} {cpath mounts : Table Chars Chars} {bindDevice : Bool}

theorem RootfsSpec.contained_of_confined (h : ∀ g,
      ∀ c ∈ (initRootfs g spec cpath mounts bindDevice []).2, c.Confined (spec.canonicalRoot g)) :
    spec.Contained cpath mounts := by
  intro hl hr m hmem ht key hk mount hmount
  have hm : key ∈ mounts := Finmap.mem_of_lookup_eq_some hmount
  have hp := Mount.Accepted.of_mem_takeWhile hmem
  obtain ⟨p, hdest⟩ := List.head?_eq_some_iff.1 hp.1
  have hroot (root : Canonical) : spec.canonicalRoot (permit root key) = .ok root := by
    obtain ⟨r, hr⟩ := Option.isSome_iff_exists.1 hr
    rw [RootfsSpec.canonicalRoot, hr]
    rfl
  have hcalls (root : Canonical) {c : RootfsCall} {node : List Chars}
      (hn : c.touched root.names = some node) (hc : Act.Reaches c
        (mountCgroup (permit root key) m root.text (parseMount m).1 cpath mounts [] key)) :
      root.names <:+ node := by
    have hconf := h (permit root key) c (initRootfs_reaches hl hr hmem ht hm hc)
    rw [hroot root] at hconf
    exact hconf node hn
  rw [hdest]
  refine ⟨?_, fun hne => ?_⟩
  · have hsuf := hcalls (freshRoot (p ++ '/' :: mountBase mount).length) rfl
      (mountCgroup_reaches_mount hmount hk)
    rw [hdest, List.cons_append, Canonical.resolve_append] at hsuf
    rw [List.cons_append, pathSteps_cons_slash]
    exact stays_of_fresh hsuf
  · have hsuf := hcalls (freshRoot (p ++ '/' :: key).length) rfl
      (mountCgroup_reaches_link hmount hk hne)
    rw [hdest, List.cons_append, List.tail_cons] at hsuf
    by_cases hslash : (p ++ '/' :: key).head? = some '/'
    · rw [resolve, if_pos hslash] at hsuf
      have hmem := mem_walk (hsuf.mem List.mem_cons_self)
      exact absurd (hmem.resolve_left List.not_mem_nil) (freshName_notMem _)
    · rw [resolve_relative hslash] at hsuf
      refine ⟨mt doubleSlash_iff.1 hslash, ?_⟩
      rw [List.cons_append, pathSteps_cons_slash]
      exact stays_of_fresh hsuf

/-- Every run of the setup stays in the rootfs exactly when the entries of the cgroup mounts do. -/
theorem initRootfs_confined_iff (spec : RootfsSpec) (cpath mounts : Table Chars Chars)
    (bindDevice : Bool) :
    (∀ g, ∀ c ∈ (initRootfs g spec cpath mounts bindDevice []).2,
      c.Confined (spec.canonicalRoot g)) ↔ spec.Contained cpath mounts :=
  ⟨RootfsSpec.contained_of_confined, fun hs _ _ => hs.confined⟩

end

/-- A cgroup mount whose destination starts with two slashes. -/
def doubledMount : Mount := ⟨"//sys/fs/cgroup".toList, "cgroup", "cgroup".toList, []⟩

def doubledSpec : RootfsSpec := ⟨some ⟨"/run/kata/c1/rootfs", false⟩, [doubledMount], some ⟨"", []⟩⟩

def cpuTable (value : String) : Table Chars Chars := Finmap.singleton "cpu".toList value.toList

/-- The link of the controller is made at `/sys/fs/cgroup/cpu`. -/
theorem initRootfs_not_confined : ¬ ∀ g, ∀ c ∈ (initRootfs g doubledSpec
      (cpuTable "/sys/fs/cgroup/cpu,cpuacct/c1") (cpuTable "/sys/fs/cgroup/cpu,cpuacct") false
        []).2,
    c.Confined (doubledSpec.canonicalRoot g) := by
  intro h
  have he : EntryContained "//sys/fs/cgroup".toList "cpu".toList
      "/sys/fs/cgroup/cpu,cpuacct".toList :=
    RootfsSpec.contained_of_confined h rfl rfl doubledMount (by decide) rfl "cpu".toList
      (by decide) _ (Finmap.lookup_singleton_eq)
  exact absurd he (by decide)

end KataAgent
