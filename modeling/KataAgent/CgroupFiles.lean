import KataAgent.CgroupStats

namespace KataAgent
open Fallible
set_option autoImplicit true

abbrev Chars := List Char

/-- `str::split(" - ")`. -/
def splitDash : Chars → List Chars
  | ' ' :: '-' :: ' ' :: rest => [] :: splitDash rest
  | c :: rest => (splitDash rest).modifyHead (c :: ·)
  | [] => [[]]

/-- The body of the loop of `get_paths`. -/
def addPath (m : Table Chars Chars) (l : Chars) : Table Chars Chars :=
  match l.splitOn ':' with
  | [_, keys, path] => (keys.splitOn ',').foldl (fun m key => m.insert key path) m
  | _ => m

def getPaths (text : String) : Table Chars Chars := (lines text).foldl addPath ∅

/-- The body of the loop over the names of a mount. -/
def addName (paths : Table Chars Chars) (pre : List Chars) (m : Table Chars Chars) (name : Chars) :
    Outcome ErrorKind (Table Chars Chars) :=
  if name ∈ paths then do
    let mnt ← Outcome.ofUnwrap pre[4]?
    return m.insert name mnt
  else .ok m

/-- The body of the loop of `get_mounts`. -/
def addMount (paths m : Table Chars Chars) (l : Chars) : Outcome ErrorKind (Table Chars Chars) := do
  let p := splitDash l
  let pre := (p.headD []).splitOn ' '
  let second ← Outcome.ofUnwrap p[1]?
  match second.splitOn ' ' with
  | [fstype, _, options] =>
    if fstype ≠ "cgroup".toList ∧ fstype ≠ "cgroup2".toList then .ok m
    else (options.splitOn ',').foldlM (addName paths pre) m
  | _ => .ok m

def getMounts (paths : Table Chars Chars) (text : String) :
    Outcome ErrorKind (Table Chars Chars) :=
  (lines text).foldlM (addMount paths) ∅

/-- A line of `/proc/self/cgroup`. -/
structure CgroupLine where
  id : Chars
  controllers : List Chars
  path : Chars
  id_ok : ':' ∉ id ∧ '\n' ∉ id
  controllers_ok : ∀ c ∈ controllers, c ≠ [] ∧ ':' ∉ c ∧ ',' ∉ c ∧ '\n' ∉ c
  path_ok : '\n' ∉ path
  absolute : path.head? = some '/'

def CgroupLine.keys (e : CgroupLine) : Chars := [','].intercalate e.controllers

def CgroupLine.text (e : CgroupLine) : Chars := e.id ++ ':' :: (e.keys ++ ':' :: e.path)

/-- A line of `/proc/self/mountinfo`: four fields, the mount point, the options and the optional
fields, and behind a hyphen the type, the source and the super options. No field in front of the
hyphen is one, but the source may be. -/
structure MountLine where
  lead : List Chars
  mountPoint : Chars
  tail : List Chars
  fstype : Chars
  source : Chars
  options : Chars
  lead_length : lead.length = 4
  before_ok : ∀ w ∈ lead ++ mountPoint :: tail, ' ' ∉ w ∧ '\n' ∉ w ∧ w ≠ ['-']
  fstype_ok : ' ' ∉ fstype ∧ '\n' ∉ fstype
  source_ok : ' ' ∉ source ∧ '\n' ∉ source
  options_ok : ' ' ∉ options ∧ '\n' ∉ options
  names_ok : fstype = "cgroup".toList ∨ fstype = "cgroup2".toList →
    '\r' ∉ options ∧ [] ∉ options.splitOn ','
  deriving DecidableEq

def MountLine.before (l : MountLine) : List Chars := l.lead ++ l.mountPoint :: l.tail

def MountLine.text (l : MountLine) : Chars :=
  [' '].intercalate l.before ++ ' ' :: '-' :: ' ' ::
    (l.fstype ++ ' ' :: (l.source ++ ' ' :: l.options))

/-- The mount is of a cgroup hierarchy. -/
def MountLine.ofCgroup (l : MountLine) : Bool :=
  l.fstype = "cgroup".toList || l.fstype = "cgroup2".toList

theorem MountLine.ofCgroup_iff (l : MountLine) : l.ofCgroup = true ↔
    l.fstype = "cgroup".toList ∨ l.fstype = "cgroup2".toList := by
  rw [MountLine.ofCgroup, Bool.or_eq_true, decide_eq_true_eq, decide_eq_true_eq]

def MountLine.names (l : MountLine) : List Chars := l.options.splitOn ','

/-- `get_mounts` keeps the fields behind the hyphen together: the source is not a hyphen too. -/
def MountLine.whole (l : MountLine) : Bool := l.source ≠ ['-']

/-- A file of lines, each with its newline. -/
def fileText (ls : List Chars) : String := String.ofList (['\n'].intercalate (ls ++ [[]]))

/-- What `str::lines` takes off the end of a line. -/
def stripReturn (l : Chars) : Chars := if l.getLast? = some '\r' then l.dropLast else l

theorem endLines_append (ls : List Chars) : endLines (ls ++ [[]]) = ls.map stripReturn := by
  induction ls with
  | nil => rfl
  | cons l ls ih =>
    cases ls with
    | nil => rfl
    | cons l' ls =>
      rw [List.map_cons, ← ih]
      rfl

theorem lines_fileText {ls : List Chars} (h : ∀ l ∈ ls, '\n' ∉ l) :
    lines (fileText ls) = ls.map stripReturn := by
  have hs : (['\n'].intercalate (ls ++ [[]])).splitOn '\n' = ls ++ [[]] := by
    refine List.splitOn_intercalate '\n' (fun l hl => ?_) (by simp)
    rcases List.mem_append.1 hl with hl | hl
    · exact h l hl
    · rw [List.mem_singleton.1 hl]
      exact List.not_mem_nil
  rw [lines, fileText, String.toList_ofList, hs, endLines_append]

theorem stripReturn_append {a b : Chars} {c : Char} (hc : c ≠ '\r') :
    stripReturn (a ++ c :: b) = a ++ c :: stripReturn b := by
  unfold stripReturn
  cases b with
  | nil => simp [hc]
  | cons d b =>
    have hl : (a ++ c :: d :: b).getLast? = (d :: b).getLast? := by
      rw [List.append_cons, List.getLast?_append_of_ne_nil _ (List.cons_ne_nil d b)]
    rw [hl]
    split
    · simp
    · rfl

theorem stripReturn_of_notMem {l : Chars} (h : '\r' ∉ l) : stripReturn l = l := by
  refine if_neg fun hl => h ?_
  exact List.mem_of_getLast? hl

theorem mem_of_mem_stripReturn {l : Chars} {c : Char} (h : c ∈ stripReturn l) : c ∈ l := by
  rw [stripReturn] at h
  split at h
  · exact List.mem_of_mem_dropLast h
  · exact h

/-- A word in front of what is split becomes a part of the first piece. -/
theorem splitDash_append {w t x : Chars} {xs : List Chars} (hw : ' ' ∉ w)
    (ht : splitDash t = x :: xs) :
    splitDash (w ++ t) = (w ++ x) :: xs := by
  induction w with
  | nil => exact ht
  | cons c w ih =>
    obtain ⟨hc, hw⟩ := List.ne_and_not_mem_of_not_mem_cons hw
    rw [List.cons_append, splitDash, ih hw]
    · rfl
    · rintro rest rfl -
      exact hc rfl

theorem splitDash_space {t x : Chars} {xs : List Chars} (hd : ∀ rest, t ≠ '-' :: ' ' :: rest)
    (ht : splitDash t = x :: xs) : splitDash (' ' :: t) = (' ' :: x) :: xs := by
  rw [splitDash, ht]
  · rfl
  · intro rest _ h
    exact hd rest h

theorem word_ne_dash {v : Chars} (hv : ' ' ∉ v ∧ v ≠ ['-']) (t rest : Chars) :
    v ++ ' ' :: t ≠ '-' :: ' ' :: rest := by
  intro h
  rcases v with _ | ⟨c, _ | ⟨d, v⟩⟩
  · cases h
  · cases h
    exact hv.2 rfl
  · cases h
    simp at hv

theorem intercalate_append_space (v : Chars) (ws : List Chars) (z : Chars) :
    ∃ t, [' '].intercalate (v :: ws) ++ ' ' :: z = v ++ ' ' :: t := by
  cases ws with
  | nil => exact ⟨z, by rw [List.intercalate_singleton]⟩
  | cons u ws => exact ⟨[' '].intercalate (u :: ws) ++ ' ' :: z, by simp⟩

/-- Words before the hyphen stay together. -/
theorem splitDash_words {ws : List Chars} (hne : ws ≠ []) (hw : ∀ w ∈ ws, ' ' ∉ w ∧ w ≠ ['-'])
    (rest : Chars) : splitDash ([' '].intercalate ws ++ ' ' :: '-' :: ' ' :: rest) =
      [' '].intercalate ws :: splitDash rest := by
  induction ws with
  | nil => exact absurd rfl hne
  | cons w ws ih =>
    have hspace := (hw w List.mem_cons_self).1
    cases ws with
    | nil =>
      rw [List.intercalate_singleton, splitDash_append hspace (splitDash.eq_1 rest),
        List.append_nil]
    | cons v ws =>
      have hrest := ih (by simp) fun u hu => hw u (List.mem_cons_of_mem _ hu)
      have hd (r : Chars) : [' '].intercalate (v :: ws) ++ ' ' :: '-' :: ' ' :: rest ≠
          '-' :: ' ' :: r := by
        obtain ⟨t, ht⟩ := intercalate_append_space v ws ('-' :: ' ' :: rest)
        rw [ht]
        exact word_ne_dash (hw v (by simp)) t r
      rw [List.intercalate_cons_cons]
      simp only [List.append_assoc, List.singleton_append]
      exact splitDash_append hspace (splitDash_space hd hrest)

theorem splitDash_of_notMem {w : Chars} (hw : ' ' ∉ w) : splitDash w = [w] := by
  have h : splitDash (w ++ []) = (w ++ []) :: [] := splitDash_append hw rfl
  rwa [List.append_nil] at h

/-- The fields behind the hyphen stay together. -/
theorem splitDash_post {fstype source options : Chars} (hf : ' ' ∉ fstype)
    (hs : ' ' ∉ source ∧ source ≠ ['-']) (ho : ' ' ∉ options) :
    splitDash (fstype ++ ' ' :: (source ++ ' ' :: options)) =
      [fstype ++ ' ' :: (source ++ ' ' :: options)] := by
  have h1 : splitDash (' ' :: options) = [' ' :: options] := by
    refine splitDash_space (fun rest h => ho ?_) (splitDash_of_notMem ho)
    rw [h]
    simp
  have h2 := splitDash_append hs.1 h1
  exact splitDash_append hf (splitDash_space (word_ne_dash hs _) h2)

/-- The controllers under which the line is entered. The line of the unified hierarchy names none,
which `split` makes one empty name. -/
def CgroupLine.entered (e : CgroupLine) : List Chars :=
  if e.controllers = [] then [[]] else e.controllers

theorem CgroupLine.splitOn_keys (e : CgroupLine) : e.keys.splitOn ',' = e.entered := by
  unfold CgroupLine.entered CgroupLine.keys
  split
  case isTrue h =>
    rw [h]
    rfl
  case isFalse h => exact List.splitOn_intercalate ',' (fun c hc => (e.controllers_ok c hc).2.2.1) h

theorem notMem_intercalate {sep c : Char} {ls : List Chars} (hs : c ≠ sep) (h : ∀ l ∈ ls, c ∉ l) :
    c ∉ [sep].intercalate ls := by
  induction ls with
  | nil => exact List.not_mem_nil
  | cons l ls ih =>
    have hl := h l List.mem_cons_self
    have hrest := ih fun l' hl' => h l' (List.mem_cons_of_mem _ hl')
    cases ls with
    | nil => rwa [List.intercalate_singleton]
    | cons l' ls =>
      rw [List.intercalate_cons_cons]
      simp only [List.mem_append, List.mem_singleton]
      tauto

theorem CgroupLine.newline_notMem (e : CgroupLine) : '\n' ∉ e.text := by
  have hk : '\n' ∉ e.keys :=
    notMem_intercalate (by decide) fun c hc => (e.controllers_ok c hc).2.2.2
  simp [CgroupLine.text, e.id_ok.2, hk, e.path_ok]

/-- `get_paths` leaves a line out when there is a colon in its path. -/
theorem addPath_text (m : Table Chars Chars) (e : CgroupLine) : addPath m (stripReturn e.text) =
    if ':' ∈ stripReturn e.path then m
    else e.entered.foldl (fun m key => m.insert key (stripReturn e.path)) m := by
  have hk : ':' ∉ e.keys := notMem_intercalate (by decide) fun c hc => (e.controllers_ok c hc).2.1
  have hs : stripReturn e.text = e.id ++ ':' :: (e.keys ++ ':' :: stripReturn e.path) := by
    have h := stripReturn_append (a := e.id ++ ':' :: e.keys) (b := e.path) (c := ':') (by decide)
    rw [List.append_assoc, List.append_assoc] at h
    exact h
  rw [addPath, hs, List.splitOn_append_cons_self_of_not_mem e.id_ok.1,
    List.splitOn_append_cons_self_of_not_mem hk]
  by_cases hp : ':' ∈ stripReturn e.path
  · obtain ⟨a, b, hab, ha⟩ := List.eq_append_cons_of_mem hp
    obtain ⟨x, xs, hx⟩ := List.exists_cons_of_ne_nil (List.splitOn_ne_nil ':' b)
    rw [if_pos hp, hab, List.splitOn_append_cons_self_of_not_mem ha, hx]
  · rw [if_neg hp, List.splitOn_eq_singleton hp]
    dsimp only
    rw [e.splitOn_keys]

theorem MountLine.newline_notMem (l : MountLine) : '\n' ∉ l.text := by
  have hb : '\n' ∉ [' '].intercalate l.before :=
    notMem_intercalate (by decide) fun w hw => (l.before_ok w hw).2.1
  simp [MountLine.text, hb, l.fstype_ok.2, l.source_ok.2, l.options_ok.2]

theorem foldlM_addName {paths : Table Chars Chars} {pre : List Chars} {mnt : Chars}
    (hp : pre[4]? = some mnt) (names : List Chars) (m : Table Chars Chars) :
    names.foldlM (addName paths pre) m =
      .ok (names.foldl (fun m name => if name ∈ paths then m.insert name mnt else m) m) := by
  induction names generalizing m with
  | nil => rfl
  | cons name names ih =>
    have hn : addName paths pre m name =
        .ok (if name ∈ paths then m.insert name mnt else m) := by
      rw [addName, hp]
      split
      · rfl
      · rfl
    rw [List.foldlM_cons, hn, Outcome.ok_bind, ih, List.foldl_cons]

theorem MountLine.stripReturn_text (l : MountLine) : stripReturn l.text =
    [' '].intercalate l.before ++ ' ' :: '-' :: ' ' ::
      (l.fstype ++ ' ' :: (l.source ++ ' ' :: stripReturn l.options)) := by
  have h := stripReturn_append (a := [' '].intercalate l.before ++ ' ' :: '-' :: ' ' ::
    (l.fstype ++ ' ' :: l.source)) (b := l.options) (c := ' ') (by decide)
  simp only [List.append_assoc, List.cons_append] at h
  exact h

/-- What is in front of the first hyphen stays together. -/
theorem MountLine.splitDash_text (l : MountLine) : splitDash (stripReturn l.text) =
    [' '].intercalate l.before ::
      splitDash (l.fstype ++ ' ' :: (l.source ++ ' ' :: stripReturn l.options)) := by
  have hne : l.before ≠ [] := by simp [MountLine.before]
  have hw : ∀ w ∈ l.before, ' ' ∉ w ∧ w ≠ ['-'] := fun w h =>
    ⟨(l.before_ok w h).1, (l.before_ok w h).2.2⟩
  rw [l.stripReturn_text, splitDash_words hne hw]

/-- A source that is a hyphen cuts the fields behind it off. -/
theorem splitDash_hyphen {fstype : Chars} (hf : ' ' ∉ fstype) (rest : Chars) :
    splitDash (fstype ++ ' ' :: (['-'] ++ ' ' :: rest)) = fstype :: splitDash rest := by
  have h := splitDash_append hf (splitDash.eq_1 rest)
  rwa [List.append_nil] at h

/-- `get_mounts` enters the mount point for each name of a cgroup mount that has a path, and leaves
a line out when its source is a hyphen. -/
theorem addMount_text (paths m : Table Chars Chars) (l : MountLine) :
    addMount paths m (stripReturn l.text) = .ok (if l.whole ∧ l.ofCgroup then
      l.names.foldl (fun m name => if name ∈ paths then m.insert name l.mountPoint else m) m
    else m) := by
  have hne : l.before ≠ [] := by simp [MountLine.before]
  have ho : ' ' ∉ stripReturn l.options := fun h => l.options_ok.1 (mem_of_mem_stripReturn h)
  have hpre : ([' '].intercalate l.before).splitOn ' ' = l.before :=
    List.splitOn_intercalate ' ' (fun w h => (l.before_ok w h).1) hne
  have hpoint : l.before[4]? = some l.mountPoint := by
    rw [MountLine.before, List.getElem?_append_right (by rw [l.lead_length]), l.lead_length]
    rfl
  rw [addMount, l.splitDash_text]
  by_cases hs : l.source = ['-']
  · have hw : ¬ (l.whole = true ∧ l.ofCgroup = true) := by
      rintro ⟨hw, -⟩
      exact of_decide_eq_true hw hs
    rw [hs, splitDash_hyphen l.fstype_ok.1, if_neg hw]
    dsimp only [List.headD_cons, List.getElem?_cons_succ, List.getElem?_cons_zero,
      Outcome.ofUnwrap]
    rw [Outcome.ok_bind, List.splitOn_eq_singleton l.fstype_ok.1]
  · have hw : l.whole = true := decide_eq_true hs
    rw [splitDash_post l.fstype_ok.1 ⟨l.source_ok.1, hs⟩ ho]
    dsimp only [List.headD_cons, List.getElem?_cons_succ, List.getElem?_cons_zero,
      Outcome.ofUnwrap]
    rw [Outcome.ok_bind, hpre, List.splitOn_append_cons_self_of_not_mem l.fstype_ok.1,
      List.splitOn_append_cons_self_of_not_mem l.source_ok.1, List.splitOn_eq_singleton ho]
    dsimp only
    by_cases hc : l.ofCgroup = true
    · have hf := l.ofCgroup_iff.1 hc
      rw [if_neg (fun h => hf.elim h.1 h.2), if_pos ⟨hw, hc⟩,
        stripReturn_of_notMem (l.names_ok hf).1, foldlM_addName hpoint]
      rfl
    · have hf := mt l.ofCgroup_iff.2 hc
      rw [if_pos (not_or.1 hf), if_neg fun h => hc h.2]

end KataAgent
