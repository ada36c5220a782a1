import Mathlib.Data.Finset.Sort
import Mathlib.Data.List.Lex
import Mathlib.Data.Char
import KataAgent.CgroupFiles

namespace KataAgent
open Fallible
set_option autoImplicit true

def PATHS : String := "/proc/self/cgroup"

def MOUNTS : String := "/proc/self/mountinfo"

/-- The order in which a hash map is iterated. -/
structure HashOrder where
  order : Table Chars Chars → List Chars
  mem_order : ∀ m k, k ∈ order m ↔ k ∈ m

structure Manager where
  paths : Table Chars Chars
  mounts : Table Chars Chars
  rels : Table Chars Chars
  cpath : Chars

def readToString (read : String → Except String String) (file : String) :
    Outcome ErrorKind String :=
  match read file with
  | .ok text => .ok text
  | .error e => .err (.io e)

/-- Where the path of a controller leads below its mount point. -/
def belowMount (value cpath : Chars) : Chars := if value = ['/'] then cpath else value ++ cpath

/-- The body of the loop of `Manager::new`. -/
def joinPath (paths mounts : Table Chars Chars) (cpath : Chars) (m : Table Chars Chars)
    (key : Chars) : Table Chars Chars :=
  match paths.lookup key, mounts.lookup key with
  | some value, some mnt => m.insert key (mnt ++ belowMount value cpath)
  | _, _ => m

/-- `Manager::new`. The paths are read once more for the mounts. -/
def Manager.new (read : String → Except String String) (o : HashOrder) (cpath : Chars) :
    Outcome ErrorKind Manager := do
  if cpath.head? ≠ some '/' then Outcome.err (.nix .EINVAL)
  let paths ← getPaths <$> readToString read PATHS
  let mounts ← do
    let paths ← getPaths <$> readToString read PATHS
    let text ← readToString read MOUNTS
    getMounts paths text
  return ⟨(o.order paths).foldl (joinPath paths mounts cpath) ∅, mounts, paths, cpath⟩

/-- The value of the last entry that lists the key. -/
def lastOf [DecidableEq κ] : List (List κ × α) → κ → Option α
  | [], _ => none
  | (ks, a) :: es, k => (lastOf es k).or (if k ∈ ks then some a else none)

section
variable {κ α : Type} [DecidableEq κ]

theorem lookup_insertAll (m : Table κ α) (ks : List κ) (a : α) (k : κ) :
    (ks.foldl (fun m k => m.insert k a) m).lookup k = if k ∈ ks then some a else m.lookup k := by
  induction ks generalizing m with
  | nil => rfl
  | cons x ks ih =>
    rw [List.foldl_cons, ih, Table.lookup_insert]
    by_cases hk : k = x
    · simp [hk]
    · simp [hk]

theorem lookup_foldl_insertAll (es : List (List κ × α)) (m : Table κ α) (k : κ) :
    (es.foldl (fun m e => e.1.foldl (fun m k => m.insert k e.2) m) m).lookup k =
      (lastOf es k).or (m.lookup k) := by
  induction es generalizing m with
  | nil => rfl
  | cons e es ih =>
    rw [List.foldl_cons, ih, lookup_insertAll, lastOf, Option.or_assoc]
    congr 1
    split
    · rfl
    · rfl

theorem lastOf_mem {es : List (List κ × α)} {k : κ} {a : α} (h : lastOf es k = some a) :
    ∃ e ∈ es, k ∈ e.1 ∧ e.2 = a := by
  induction es with
  | nil => cases h
  | cons e es ih =>
    rw [lastOf] at h
    cases hl : lastOf es k with
    | some b =>
      rw [hl] at h
      cases h
      obtain ⟨e', he', hk⟩ := ih hl
      exact ⟨e', List.mem_cons_of_mem _ he', hk⟩
    | none =>
      rw [hl, Option.none_or] at h
      obtain ⟨hk, ha⟩ := Option.ite_none_right_eq_some.1 h
      cases ha
      exact ⟨e, List.mem_cons_self, hk, rfl⟩

theorem lastOf_eq_none {es : List (List κ × α)} {k : κ} :
    lastOf es k = none ↔ ∀ e ∈ es, k ∉ e.1 := by
  induction es with
  | nil => exact iff_of_true rfl nofun
  | cons e es ih =>
    rw [lastOf, Option.or_eq_none_iff, ih, List.forall_mem_cons, and_comm]
    refine and_congr_left fun _ => ?_
    split
    case isTrue h => exact iff_of_false nofun (not_not.2 h)
    case isFalse h => exact iff_of_true rfl h

end

/-- What `get_paths` enters for the lines. -/
def readPaths (es : List CgroupLine) : List (List Chars × Chars) :=
  (es.filter fun e => ':' ∉ stripReturn e.path).map fun e => (e.entered, stripReturn e.path)

theorem lookup_getPaths (es : List CgroupLine) (key : Chars) :
    (getPaths (fileText (es.map CgroupLine.text))).lookup key = lastOf (readPaths es) key := by
  have hfold (m : Table Chars Chars) :
      (es.map fun e => stripReturn e.text).foldl addPath m =
        (readPaths es).foldl (fun m e => e.1.foldl (fun m k => m.insert k e.2) m) m := by
    induction es generalizing m with
    | nil => rfl
    | cons e es ih =>
      rw [List.map_cons, List.foldl_cons, ih, addPath_text]
      by_cases hp : ':' ∈ stripReturn e.path
      · have hcons : readPaths (e :: es) = readPaths es := by simp [readPaths, hp]
        rw [if_pos hp, hcons]
      · have hcons : readPaths (e :: es) =
            (e.entered, stripReturn e.path) :: readPaths es := by simp [readPaths, hp]
        rw [if_neg hp, hcons, List.foldl_cons]
  rw [getPaths, lines_fileText, List.map_map]
  · refine (congrArg (Finmap.lookup key) (hfold ∅)).trans ?_
    rw [lookup_foldl_insertAll, Finmap.lookup_empty, Option.or_none]
  · intro l hl
    obtain ⟨e, -, rfl⟩ := List.mem_map.1 hl
    exact e.newline_notMem

/-- The cgroup mounts, each with the names that its super options list. -/
def cgroupMounts (ls : List MountLine) : List (List Chars × Chars) :=
  (ls.filter MountLine.ofCgroup).map fun l => (l.names, l.mountPoint)

/-- What `get_mounts` enters for the lines, where it finds a path for the name. -/
def readMounts (ls : List MountLine) : List (List Chars × Chars) :=
  cgroupMounts (ls.filter MountLine.whole)

theorem lookup_addNames (paths m : Table Chars Chars) (names : List Chars) (mnt key : Chars) :
    (names.foldl (fun m name => if name ∈ paths then m.insert name mnt else m) m).lookup key =
      if key ∈ names ∧ key ∈ paths then some mnt else m.lookup key := by
  induction names generalizing m with
  | nil => simp
  | cons name names ih =>
    rw [List.foldl_cons, ih]
    by_cases hp : name ∈ paths
    · rw [if_pos hp, Table.lookup_insert]
      by_cases hk : key = name
      · subst hk
        simp [hp]
      · simp [hk]
    · rw [if_neg hp]
      by_cases hk : key = name
      · subst hk
        simp [hp]
      · simp [hk]

theorem getMounts_eq (paths : Table Chars Chars) (ls : List MountLine) :
    ∃ mounts, getMounts paths (fileText (ls.map MountLine.text)) = .ok mounts ∧
      ∀ key, mounts.lookup key = if key ∈ paths then lastOf (readMounts ls) key else none := by
  have hfold (m : Table Chars Chars) : ∃ mounts,
      (ls.map fun l => stripReturn l.text).foldlM (addMount paths) m = .ok mounts ∧
        ∀ key, mounts.lookup key =
          if key ∈ paths then (lastOf (readMounts ls) key).or (m.lookup key)
          else m.lookup key := by
    induction ls generalizing m with
    | nil => exact ⟨m, rfl, fun key => (ite_self _).symm⟩
    | cons l ls ih =>
      rw [List.map_cons, List.foldlM_cons, addMount_text, Outcome.ok_bind]
      obtain ⟨mounts, hm, hl⟩ := ih (if l.whole = true ∧ l.ofCgroup = true then
        l.names.foldl (fun m name => if name ∈ paths then m.insert name l.mountPoint else m) m
        else m)
      refine ⟨mounts, hm, fun key => (hl key).trans ?_⟩
      by_cases hc : l.whole = true ∧ l.ofCgroup = true
      · have hcons : readMounts (l :: ls) = (l.names, l.mountPoint) :: readMounts ls := by
          simp [readMounts, cgroupMounts, hc]
        rw [if_pos hc, lookup_addNames, hcons, lastOf, Option.or_assoc]
        by_cases hk : key ∈ paths
        · rw [if_pos hk, if_pos hk]
          by_cases hn : key ∈ l.names
          · simp [hn, hk]
          · simp [hn]
        · rw [if_neg hk, if_neg hk, if_neg (fun h => hk h.2)]
      · have hcons : readMounts (l :: ls) = readMounts ls := by
          rw [readMounts, List.filter_cons]
          split
          case isTrue hw =>
            have hof : ¬ l.ofCgroup = true := fun h => hc ⟨hw, h⟩
            rw [cgroupMounts, List.filter_cons_of_neg hof]
            rfl
          case isFalse => rfl
        rw [if_neg hc, hcons]
  obtain ⟨mounts, hm, hl⟩ := hfold ∅
  refine ⟨mounts, ?_, fun key => ?_⟩
  · rw [getMounts, lines_fileText, List.map_map]
    · exact hm
    · intro l hl
      obtain ⟨e, -, rfl⟩ := List.mem_map.1 hl
      exact e.newline_notMem
  · rw [hl key, Finmap.lookup_empty, Option.or_none]

/-- What `Manager::new` enters for a controller. -/
def joined (paths mounts : Table Chars Chars) (cpath key : Chars) : Option Chars :=
  match paths.lookup key, mounts.lookup key with
  | some value, some mnt => some (mnt ++ belowMount value cpath)
  | _, _ => none

theorem lookup_joinPath (paths mounts m : Table Chars Chars) (cpath key k : Chars) :
    (joinPath paths mounts cpath m key).lookup k =
      if k = key then (joined paths mounts cpath key).or (m.lookup k) else m.lookup k := by
  unfold joinPath joined
  split
  · rw [Table.lookup_insert]
    rfl
  · exact (ite_self _).symm

theorem lookup_foldl_joinPath (paths mounts m : Table Chars Chars) (cpath : Chars)
    (keys : List Chars) (k : Chars) :
    (keys.foldl (joinPath paths mounts cpath) m).lookup k =
      if k ∈ keys then (joined paths mounts cpath k).or (m.lookup k) else m.lookup k := by
  induction keys generalizing m with
  | nil => rfl
  | cons key keys ih =>
    rw [List.foldl_cons, ih, lookup_joinPath]
    by_cases hk : k = key
    · subst hk
      by_cases hm : k ∈ keys
      · cases hj : joined paths mounts cpath k with
        | none => simp
        | some p => simp
      · simp [hm]
    · simp [hk]

/-- The two files of the process. -/
def procFiles (es : List CgroupLine) (ls : List MountLine) (file : String) : Except String String :=
  if file = PATHS then .ok (fileText (es.map CgroupLine.text))
  else if file = MOUNTS then .ok (fileText (ls.map MountLine.text))
  else .error notFound

theorem lookup_joinPaths (o : HashOrder) (paths mounts : Table Chars Chars) (cpath key : Chars) :
    ((o.order paths).foldl (joinPath paths mounts cpath) ∅).lookup key =
      joined paths mounts cpath key := by
  rw [lookup_foldl_joinPath, Finmap.lookup_empty, Option.or_none]
  split
  case isTrue h => rfl
  case isFalse h =>
    have hn : paths.lookup key = none := Finmap.lookup_eq_none.2 (mt (o.mem_order _ _).2 h)
    rw [joined, hn]

/-- The manager of well-formed files, for an absolute path. -/
theorem Manager.new_eq (o : HashOrder) (es : List CgroupLine) (ls : List MountLine) {cpath : Chars}
    (hc : cpath.head? = some '/') : ∃ m paths mounts,
      Manager.new (procFiles es ls) o cpath = .ok m ∧
      (∀ key, paths.lookup key = lastOf (readPaths es) key) ∧
      (∀ key, mounts.lookup key = if key ∈ paths then lastOf (readMounts ls) key else none) ∧
      ∀ key, m.paths.lookup key = joined paths mounts cpath key := by
  obtain ⟨mounts, hm, hl⟩ := getMounts_eq (getPaths (fileText (es.map CgroupLine.text))) ls
  have hk := lookup_getPaths es
  have h1 : getPaths <$> readToString (procFiles es ls) PATHS =
      .ok (getPaths (fileText (es.map CgroupLine.text))) := rfl
  have h2 : readToString (procFiles es ls) MOUNTS = .ok (fileText (ls.map MountLine.text)) := rfl
  generalize getPaths (fileText (es.map CgroupLine.text)) = paths at hm hl hk h1
  refine ⟨⟨(o.order paths).foldl (joinPath paths mounts cpath) ∅, mounts, paths, cpath⟩, paths,
    mounts, ?_, hk, hl, fun key => ?_⟩
  · rw [Manager.new, if_neg (not_not.2 hc), h1, h2]
    simp only [Outcome.ok_bind, hm]
    rfl
  · exact lookup_joinPaths o paths mounts cpath key

/-- What a manager of well-formed files keeps. -/
theorem Manager.new_fields {o : HashOrder} {es : List CgroupLine} {ls : List MountLine}
    {cpath : Chars} {m : Manager} (h : Manager.new (procFiles es ls) o cpath = .ok m) :
    cpath.head? = some '/' ∧ m.cpath = cpath ∧
      (∀ key, m.rels.lookup key = lastOf (readPaths es) key) ∧
      (∀ key, m.mounts.lookup key =
        if key ∈ m.rels then lastOf (readMounts ls) key else none) ∧
      ∀ key, m.paths.lookup key = joined m.rels m.mounts cpath key := by
  have hc : cpath.head? = some '/' := by
    by_contra hc
    rw [Manager.new, if_pos hc] at h
    cases h
  obtain ⟨mounts, hm, hmnt⟩ := getMounts_eq (getPaths (fileText (es.map CgroupLine.text))) ls
  have h1 : getPaths <$> readToString (procFiles es ls) PATHS =
      .ok (getPaths (fileText (es.map CgroupLine.text))) := rfl
  have h2 : readToString (procFiles es ls) MOUNTS = .ok (fileText (ls.map MountLine.text)) := rfl
  rw [Manager.new, if_neg (not_not.2 hc), h1, h2] at h
  simp only [Outcome.ok_bind, hm] at h
  cases h
  exact ⟨hc, rfl, lookup_getPaths es, hmnt, lookup_joinPaths o _ _ _⟩

/-- The last line that names the controller. -/
def lastLine (es : List CgroupLine) (key : Chars) : Option CgroupLine :=
  lastOf (es.map fun e => (e.controllers, e)) key

/-- Where the cgroups of a container are, for a controller that is in both files. -/
def expectedPath (es : List CgroupLine) (ls : List MountLine) (cpath key : Chars) : Option Chars :=
  match lastLine es key, lastOf (cgroupMounts ls) key with
  | some e, some mnt => some (mnt ++ belowMount e.path cpath)
  | _, _ => none

/-- The path has no colon, and `str::lines` takes nothing off it. -/
def CgroupLine.Plain (e : CgroupLine) : Prop := ':' ∉ e.path ∧ e.path.getLast? ≠ some '\r'

theorem CgroupLine.colon_mem_iff (e : CgroupLine) : ':' ∈ stripReturn e.path ↔ ':' ∈ e.path := by
  refine ⟨mem_of_mem_stripReturn, fun h => ?_⟩
  rw [stripReturn]
  split
  case isFalse => exact h
  case isTrue hl =>
    have hne : e.path ≠ [] := List.ne_nil_of_mem h
    rw [List.getLast?_eq_some_getLast hne] at hl
    rw [← List.dropLast_append_getLast hne, Option.some_inj.1 hl] at h
    simpa using h

theorem CgroupLine.mem_entered {e : CgroupLine} {key : Chars} (hk : key ≠ []) :
    key ∈ e.entered ↔ key ∈ e.controllers := by
  rw [CgroupLine.entered]
  split
  case isFalse => exact Iff.rfl
  case isTrue h => simp [h, hk]

theorem lastOf_readPaths_none {es : List CgroupLine} {key : Chars} (hk : key ≠ [])
    (h : lastLine es key = none) : lastOf (readPaths es) key = none := by
  rw [lastLine, lastOf_eq_none] at h
  rw [lastOf_eq_none]
  intro p hp hmem
  obtain ⟨e, he, rfl⟩ := List.mem_map.1 hp
  exact h (e.controllers, e) (List.mem_map_of_mem (List.mem_filter.1 he).1)
    ((CgroupLine.mem_entered hk).1 hmem)

theorem lastLine_mem {es : List CgroupLine} {key : Chars} {e : CgroupLine}
    (h : lastLine es key = some e) : e ∈ es ∧ key ∈ e.controllers := by
  obtain ⟨p, hp, hk, rfl⟩ := lastOf_mem h
  obtain ⟨e, he, rfl⟩ := List.mem_map.1 hp
  exact ⟨he, hk⟩

/-- A last line without a colon in its path is the one that is entered. -/
theorem lastOf_readPaths_some {es : List CgroupLine} {key : Chars} {e : CgroupLine}
    (h : lastLine es key = some e) (hc : ':' ∉ e.path) :
    lastOf (readPaths es) key = some (stripReturn e.path) := by
  have hk : key ≠ [] := (e.controllers_ok key (lastLine_mem h).2).1
  induction es with
  | nil => cases h
  | cons x es ih =>
    have hcons : lastOf (readPaths (x :: es)) key = (lastOf (readPaths es) key).or
        (if ':' ∉ x.path ∧ key ∈ x.controllers then some (stripReturn x.path) else none) := by
      by_cases hx : ':' ∈ x.path
      · have hr : readPaths (x :: es) = readPaths es := by
          simp [readPaths, x.colon_mem_iff.2 hx]
        rw [hr, if_neg (fun h => h.1 hx), Option.or_none]
      · have hr : readPaths (x :: es) = (x.entered, stripReturn x.path) :: readPaths es := by
          simp [readPaths, mt x.colon_mem_iff.1 hx]
        rw [hr, lastOf]
        simp only [hx, CgroupLine.mem_entered hk, not_false_eq_true, true_and]
    rw [lastLine, List.map_cons, lastOf] at h
    rw [hcons]
    cases hl : lastLine es key with
    | some e' =>
      change (lastLine es key).or _ = _ at h
      rw [hl] at h
      cases h
      rw [ih hl]
      rfl
    | none =>
      change (lastLine es key).or _ = _ at h
      rw [hl, Option.none_or] at h
      obtain ⟨hm, he⟩ := Option.ite_none_right_eq_some.1 h
      cases he
      rw [lastOf_readPaths_none hk hl, Option.none_or, if_pos ⟨hc, hm⟩]

theorem belowMount_inj {a b cpath : Chars} (h : belowMount a cpath = belowMount b cpath)
    (hb : b ≠ ['/']) : a = b ∨ a = ['/'] ∧ b = [] := by
  rw [belowMount, belowMount, if_neg hb] at h
  split at h
  case isTrue ha => exact .inr ⟨ha, by simpa using h⟩
  case isFalse => exact .inl (List.append_cancel_right h)

/-- A controller whose entry is right has a plain line. -/
theorem CgroupLine.plain_of_joined {es : List CgroupLine} {paths mounts : Table Chars Chars}
    {cpath mnt key : Chars} {e : CgroupLine} (hl : lastLine es key = some e)
    (hp : ∀ key, paths.lookup key = lastOf (readPaths es) key)
    (hm : ∀ mnt', mounts.lookup key = some mnt' → mnt' = mnt)
    (hj : joined paths mounts cpath key = some (mnt ++ belowMount e.path cpath)) : e.Plain := by
  have hne : e.path ≠ [] := by
    intro hn
    have ha := e.absolute
    rw [hn] at ha
    cases ha
  rw [joined] at hj
  split at hj
  case h_2 => cases hj
  case h_1 value mnt' hv hmnt =>
    have he := Option.some_inj.1 hj
    rw [hm mnt' hmnt] at he
    have hbelow := List.append_cancel_left he
    rw [hp key] at hv
    have hcolon : ':' ∉ e.path := by
      intro hc
      obtain ⟨p, hmem, -, rfl⟩ := lastOf_mem hv
      obtain ⟨e', he', rfl⟩ := List.mem_map.1 hmem
      have hno : ':' ∉ stripReturn e'.path := by simpa using (List.mem_filter.1 he').2
      rcases belowMount_inj hbelow (fun h => by simp [h] at hc) with h | ⟨-, h⟩
      · have h' : stripReturn e'.path = e.path := h
        exact hno (by rw [h']; exact hc)
      · exact hne h
    refine ⟨hcolon, fun hr => ?_⟩
    have hs := lastOf_readPaths_some hl hcolon
    rw [hv, stripReturn, if_pos hr] at hs
    rcases belowMount_inj hbelow (fun h => by simp [h] at hr) with h | ⟨-, h⟩
    · have hlen := congrArg List.length (h.symm.trans (Option.some_inj.1 hs))
      rw [List.length_dropLast] at hlen
      have hpos := List.length_pos_iff.2 hne
      omega
    · exact hne h

/-- A controller that is mounted has a name. -/
theorem ne_nil_of_lastOf {ls : List MountLine} {mnt key : Chars}
    (h : lastOf (cgroupMounts ls) key = some mnt) : key ≠ [] := by
  obtain ⟨p, hmem, hkey, -⟩ := lastOf_mem h
  obtain ⟨l, hl, rfl⟩ := List.mem_map.1 hmem
  obtain ⟨-, hof⟩ := List.mem_filter.1 hl
  rintro rfl
  exact (l.names_ok (l.ofCgroup_iff.1 hof)).2 hkey

theorem lastOf_readMounts_none {ls : List MountLine} {key : Chars}
    (h : lastOf (cgroupMounts ls) key = none) : lastOf (readMounts ls) key = none := by
  rw [lastOf_eq_none] at h ⊢
  intro p hp
  obtain ⟨l, hl, rfl⟩ := List.mem_map.1 hp
  obtain ⟨hl, hof⟩ := List.mem_filter.1 hl
  exact h _ (List.mem_map_of_mem (List.mem_filter.2 ⟨(List.mem_filter.1 hl).1, hof⟩))

/-- What a plain last line enters is its path. -/
theorem CgroupLine.Plain.entered_path {es : List CgroupLine} {key : Chars} {e : CgroupLine}
    (he : e.Plain) (h : lastLine es key = some e) : lastOf (readPaths es) key = some e.path := by
  rw [lastOf_readPaths_some h he.1, stripReturn, if_neg he.2]

/-- Of a controller that is mounted and has a line, the last line is plain, and the last mount has the
place of the last one whose line is read. Or neither is so, and by chance the lines that are read
instead make the same path. -/
def LinesRead (es : List CgroupLine) (ls : List MountLine) (cpath key : Chars) : Prop :=
  ∀ e ∈ lastLine es key, ∀ mnt ∈ lastOf (cgroupMounts ls) key,
    e.Plain ∧ lastOf (readMounts ls) key = some mnt ∨
    ¬ e.Plain ∧ ∃ mnt' value, lastOf (readMounts ls) key = some mnt' ∧ mnt' ≠ mnt ∧
      lastOf (readPaths es) key = some value ∧
      mnt' ++ belowMount value cpath = mnt ++ belowMount e.path cpath

/-- An entry that is right comes from the lines that it should come from, but for the chance. -/
theorem linesRead_of_joined {es : List CgroupLine} {ls : List MountLine}
    {paths mounts : Table Chars Chars} {cpath key : Chars}
    (hp : ∀ key, paths.lookup key = lastOf (readPaths es) key)
    (hm : ∀ key, mounts.lookup key = if key ∈ paths then lastOf (readMounts ls) key else none)
    (h : joined paths mounts cpath key = expectedPath es ls cpath key) :
    LinesRead es ls cpath key := by
  intro e he mnt hmnt
  rw [expectedPath, Option.mem_def.1 he, Option.mem_def.1 hmnt] at h
  have hjoin := h
  rw [joined] at h
  split at h
  case h_2 => cases h
  case h_1 value mnt' hv hmnt' =>
    have hread : lastOf (readMounts ls) key = some mnt' := by
      rw [hm key] at hmnt'
      exact (Option.ite_none_right_eq_some.1 hmnt').2
    by_cases hsame : mnt' = mnt
    · left
      refine ⟨CgroupLine.plain_of_joined he hp (fun m hm' => ?_) hjoin, hsame ▸ hread⟩
      exact (Option.some_inj.1 (hm'.symm.trans hmnt')).trans hsame
    · right
      refine ⟨fun hplain => hsame ?_, mnt', value, hread, hsame, (hp key).symm.trans hv,
        Option.some_inj.1 h⟩
      rw [hp key, hplain.entered_path he] at hv
      rw [← Option.some_inj.1 hv] at h
      exact List.append_cancel_right (Option.some_inj.1 h)

theorem joined_of_linesRead {es : List CgroupLine} {ls : List MountLine}
    {paths mounts : Table Chars Chars} {cpath key : Chars}
    (hp : ∀ key, paths.lookup key = lastOf (readPaths es) key)
    (hm : ∀ key, mounts.lookup key = if key ∈ paths then lastOf (readMounts ls) key else none)
    (h : LinesRead es ls cpath key) :
    joined paths mounts cpath key = expectedPath es ls cpath key := by
  have hin {value : Chars} (hv : lastOf (readPaths es) key = some value) : key ∈ paths := by
    rw [← not_not (a := key ∈ paths), Table.notMem_iff, hp key, hv]
    exact Option.some_ne_none _
  rw [joined, expectedPath, hm key, hp key]
  cases hlast : lastOf (cgroupMounts ls) key with
  | none =>
    rw [lastOf_readMounts_none hlast, ite_self]
    cases lastOf (readPaths es) key with
    | none => cases lastLine es key <;> rfl
    | some value => cases lastLine es key <;> rfl
  | some mnt =>
    cases hline : lastLine es key with
    | none => rw [lastOf_readPaths_none (ne_nil_of_lastOf hlast) hline]
    | some e =>
      rcases h e hline mnt hlast with ⟨hplain, hmnt⟩ | ⟨-, mnt', value, hmnt, -, hv, heq⟩
      · have hv := hplain.entered_path hline
        rw [hmnt, hv, if_pos (hin hv)]
      · rw [hmnt, hv, if_pos (hin hv)]
        exact congrArg some heq

/-- `Manager::new` is right for every controller exactly when the last lines of each one that is
mounted are read as they should be. -/
theorem manager_paths_iff (o : HashOrder) (es : List CgroupLine) (ls : List MountLine)
    (cpath : Chars) (hc : cpath.head? = some '/') :
    (∃ m, Manager.new (procFiles es ls) o cpath = .ok m ∧
      ∀ key, m.paths.lookup key = expectedPath es ls cpath key) ↔
    ∀ key, LinesRead es ls cpath key := by
  obtain ⟨m, paths, mounts, hm, hp, hmnt, hj⟩ := Manager.new_eq o es ls hc
  constructor
  · rintro ⟨m', hm', hexp⟩ key
    cases hm.symm.trans hm'
    exact linesRead_of_joined hp hmnt ((hj key).symm.trans (hexp key))
  · intro h
    refine ⟨m, hm, fun key => ?_⟩
    rw [hj key]
    exact joined_of_linesRead hp hmnt (h key)

def sortedKeys (keys : Finset Chars) : List Chars := keys.sort

theorem mem_sortedKeys {keys : Finset Chars} {key : Chars} : key ∈ sortedKeys keys ↔ key ∈ keys :=
  Finset.mem_sort _

def sortedOrder : HashOrder where
  order m := sortedKeys m.keys
  mem_order m k := by rw [mem_sortedKeys, Finmap.mem_keys]

/-- The line `4:cpu,cpuacct:` with a path. -/
def cpuLine (path : String) (hn : '\n' ∉ path.toList) (ha : path.toList.head? = some '/') :
    CgroupLine where
  id := "4".toList
  controllers := ["cpu".toList, "cpuacct".toList]
  path := path.toList
  id_ok := by decide
  controllers_ok := by decide
  path_ok := hn
  absolute := ha

/-- The line `36 25 0:31 / /sys/fs/cgroup/cpu rw - cgroup cgroup rw,cpu,cpuacct`. -/
def cpuMount : MountLine where
  lead := ["36".toList, "25".toList, "0:31".toList, "/".toList]
  mountPoint := "/sys/fs/cgroup/cpu".toList
  tail := ["rw".toList]
  fstype := "cgroup".toList
  source := "cgroup".toList
  options := "rw,cpu,cpuacct".toList
  lead_length := rfl
  before_ok := by decide
  fstype_ok := by decide
  source_ok := by decide
  options_ok := by decide
  names_ok := by decide

/-- Every path is plain, so both controllers are found. -/
theorem manager_paths_plain : ∃ m, Manager.new
      (procFiles [cpuLine "/docker/ab" (by decide) (by decide)] [cpuMount]) sortedOrder
        "/kata".toList = .ok m ∧
    ∀ key, m.paths.lookup key =
      expectedPath [cpuLine "/docker/ab" (by decide) (by decide)] [cpuMount] "/kata".toList
        key := by
  refine (manager_paths_iff sortedOrder [cpuLine "/docker/ab" (by decide) (by decide)] [cpuMount]
    "/kata".toList (by decide)).2 fun key e he mnt hmnt => ?_
  have hmem := (lastLine_mem he).1
  have hread : readMounts [cpuMount] = cgroupMounts [cpuMount] := by decide
  rw [List.mem_singleton.1 hmem, hread]
  exact .inl ⟨⟨by decide, by decide⟩, hmnt⟩

/-- The path of a unit whose name has a colon: the line is dropped, and with it both controllers. -/
theorem manager_paths_ne : ¬ ∀ (o : HashOrder) (es : List CgroupLine) (ls : List MountLine)
    (cpath : Chars), cpath.head? = some '/' → ∃ m, Manager.new (procFiles es ls) o cpath = .ok m ∧
      ∀ key, m.paths.lookup key = expectedPath es ls cpath key := by
  intro h
  have hc : "/kata".toList.head? = some '/' := by decide
  obtain ⟨m, hm, hexp⟩ := h sortedOrder [cpuLine "/a:b" (by decide) (by decide)] [cpuMount] _ hc
  obtain ⟨m', paths, mounts, hm', hp, -, hj⟩ := Manager.new_eq sortedOrder
    [cpuLine "/a:b" (by decide) (by decide)] [cpuMount] hc
  cases hm.symm.trans hm'
  have hnone : paths.lookup "cpu".toList = none := (hp _).trans (by decide)
  have hkey := (hexp "cpu".toList).symm.trans (hj "cpu".toList)
  rw [joined, hnone] at hkey
  have hnot : expectedPath [cpuLine "/a:b" (by decide) (by decide)] [cpuMount] "/kata".toList
      "cpu".toList = none := hkey
  exact absurd hnot (by decide)

end KataAgent
