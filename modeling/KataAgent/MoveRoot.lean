import KataAgent.MountStacks
import KataAgent.RootfsSetup

namespace KataAgent
open Fallible MountStacks TreePaths
set_option autoImplicit true

def MS_MOVE : MsFlags := 8192

def MNT_DETACH : Nat := 2

def EPERM : Errno := .other 1

/-- An entry of the mount table, as `/proc/self/mountinfo` has it. -/
structure Info where
  id : Int
  parent : Int
  major : Int
  minor : Int
  root : Chars
  mountPoint : Chars
  opts : Chars
  optional : Chars
  fstype : Chars
  source : Chars
  vfsOpts : Chars

/-- What `MOUNTINFOFORMAT` finds in a line. -/
structure LeadFields where
  id : Int
  parent : Int
  major : Int
  minor : Int
  root : Chars
  mountPoint : Chars
  opts : Chars
  optional : Chars
  deriving DecidableEq

/-- The system calls of `ms_move_root`. -/
inductive MoveCall where
  | chdir (path : Chars)
  | mount (source : Option Chars) (target : Chars) (fstype : Option String) (flags : MsFlags)
  | umount2 (target : Chars) (flags : Nat)
  | chroot (path : Chars)
  deriving DecidableEq

def octal (c : Char) : Option Nat := if '0' ≤ c ∧ c ≤ '7' then some (c.toNat - '0'.toNat) else none

/-- The kernel prints a blank or a backslash as a backslash and three octal digits. -/
def unescaped : Chars → Chars
  | '\\' :: a :: b :: c :: rest =>
    match octal a, octal b, octal c with
    | some x, some y, some z => Char.ofNat (64 * x + 8 * y + z) :: unescaped rest
    | _, _, _ => '\\' :: unescaped (a :: b :: c :: rest)
  | c :: rest => c :: unescaped rest
  | [] => []

/-- The place of the mount point. -/
def MountLine.place (e : MountLine) : List Chars := (lexical (unescaped e.mountPoint)).names

/-- The place that the text of the mount point leads to as a path. -/
def MountLine.called (e : MountLine) : List Chars := (lexical e.mountPoint).names

/-- A mount of the table, or a tmpfs that the function has mounted on a place. -/
inductive HostMount where
  | listed (e : MountLine)
  | cover (place : List Chars)
  deriving DecidableEq

def HostMount.place : HostMount → List Chars
  | .listed e => e.place
  | .cover place => place

def hostMounting : Mounting Chars HostMount where
  place := HostMount.place
  cover := .cover
  place_cover := rfl

/-- What a call that succeeds does to the mounts, the latest first. The last one, which moves the
rootfs onto all the others, is left out. -/
def MoveCall.effect : MoveCall → List HostMount → List HostMount
  | .umount2 target _, T => hostMounting.detach (lexical target).names T
  | .mount _ target (some _) _, T => .cover (lexical target).names :: T
  | _, T => T

/-- The mounts after the calls, the latest call first. -/
def mountsAfter (fault : List MoveCall → MoveCall → Option Errno) (T : List HostMount) :
    List MoveCall → List HostMount
  | [] => T
  | c :: h =>
    if (fault h c).isSome then mountsAfter fault T h else c.effect (mountsAfter fault T h)

/-- The places that `umount2` was called for, the first call first, with what came of it: where the
kernel refused, a cover. -/
def handlings (fault : List MoveCall → MoveCall → Option Errno) :
    List MoveCall → List (List Chars × Handling)
  | [] => []
  | .umount2 target flags :: h =>
    handlings fault h ++ [((lexical target).names,
      if (fault h (.umount2 target flags)).isSome then .covered else .detached)]
  | _ :: h => handlings fault h

/-- The answers of the guest. `absolutize` is that of the crate `path_absolutize`, and the two scans
are those of `scan_fmt!`. The kernel detaches and moves a mount at its root only. -/
structure MoveGuest where
  read : String → Except String String
  scanLead : Chars → Outcome ErrorKind LeadFields
  scanTail : Chars → Outcome ErrorKind (Chars × Chars × Chars)
  absolutize : List MoveCall → Chars → Outcome ErrorKind Chars
  display : Errno → String
  fault : List MoveCall → MoveCall → Option Errno
  /-- The mounts of the table, the latest first. -/
  stack : List MountLine
  umount2_root : ∀ h target, fault h (.umount2 target MNT_DETACH) = none →
    hostMounting.Rooted (mountsAfter fault (stack.map .listed) h) (lexical target).names
  move_root : ∀ h source, fault h (.mount (some source) ['/'] none MS_MOVE) = none →
    hostMounting.Rooted (mountsAfter fault (stack.map .listed) h) (lexical source).names

abbrev Moving := Act (List MoveCall) ErrorKind

def MoveGuest.call (g : MoveGuest) (c : MoveCall) : Moving Unit := fun h =>
  (syscall (g.fault h c), c :: h)

def MoveGuest.absolutized (g : MoveGuest) (path : Chars) : Moving Chars := fun h =>
  (g.absolutize h path, h)

/-- The body of the loop of `parse_mount_table`. -/
def parseInfo (g : MoveGuest) (line : Chars) : Outcome ErrorKind Info := do
  let f ← g.scanLead line
  match splitDash line with
  | [_, after] => do
    let (fstype, source, vfsOpts) ← g.scanTail after
    return ⟨f.id, f.parent, f.major, f.minor, f.root, f.mountPoint, f.opts,
      if f.optional ≠ ['-'] then f.optional else [], fstype, source, vfsOpts⟩
  | _ => .err (.errorCode "failed to parse mount info file")

def parseMountTable (g : MoveGuest) : Outcome ErrorKind (List Info) := do
  let text ← readToString g.read MOUNTS
  (lines text).mapM (parseInfo g)

/-- Where the agent may not unmount, it covers the path. -/
def detachOrCover (g : MoveGuest) (path : Chars) : Moving Unit := fun h =>
  match g.fault h (.umount2 path MNT_DETACH) with
  | none => (.ok (), .umount2 path MNT_DETACH :: h)
  | some e =>
    if e ≠ .EINVAL ∧ e ≠ EPERM then
      (.err (.errorCode (g.display e)), .umount2 path MNT_DETACH :: h)
    else
      g.call (.mount (some "tmpfs".toList) path (some "tmpfs") 0) (.umount2 path MNT_DETACH :: h)

/-- The body of the loop of `ms_move_root`. -/
def clearMount (g : MoveGuest) (absRoot : Chars) (info : Info) : Moving Unit := do
  let absMountPoint ← g.absolutized info.mountPoint
  if (info.fstype ≠ "proc".toList ∧ info.fstype ≠ "sysfs".toList) ∨ absRoot <+: absMountPoint then
    return
  else do
    g.call (.mount none absMountPoint none (MS_SLAVE ||| MS_REC))
    detachOrCover g absMountPoint

def msMoveRoot (g : MoveGuest) (rootfs : Chars) : Moving Bool := do
  g.call (.chdir rootfs)
  let infos ← Act.lift (parseMountTable g)
  let absRoot ← g.absolutized rootfs
  infos.forM (clearMount g absRoot)
  g.call (.mount (some absRoot) ['/'] none MS_MOVE)
  g.call (.chroot ['.'])
  g.call (.chdir ['/'])
  return true

/-- A mount of the kernel's process or device tree. -/
def MountLine.Pseudo (e : MountLine) : Prop :=
  e.fstype = "proc".toList ∨ e.fstype = "sysfs".toList

instance {e : MountLine} : Decidable e.Pseudo := inferInstanceAs (Decidable (_ ∨ _))

/-- The guest has the mount table, which lists every mount once, the scans find the fields of its
lines, and `absolutize` drops from an absolute path what does nothing. -/
structure MoveGuest.Reads (g : MoveGuest) (es : List MountLine) : Prop where
  listed : es.Perm g.stack
  once : es.Nodup
  read : g.read MOUNTS = .ok (fileText (es.map MountLine.text))
  lead : ∀ e ∈ es, ∃ f, g.scanLead (stripReturn e.text) = .ok f ∧ f.mountPoint = e.mountPoint
  tail : ∀ e ∈ es, ∃ source vfsOpts,
    g.scanTail (e.fstype ++ ' ' :: (e.source ++ ' ' :: stripReturn e.options)) =
      .ok (e.fstype, source, vfsOpts)
  absolute : ∀ e ∈ es, e.mountPoint.head? = some '/'
  absolutize : ∀ h path, path.head? = some '/' → g.absolutize h path = .ok (lexical path).text

def MoveGuest.atFirst (g : MoveGuest) : List HostMount := g.stack.map .listed

def MoveGuest.after (g : MoveGuest) (h : List MoveCall) : List HostMount :=
  mountsAfter g.fault g.atFirst h

/-- Every proc and sysfs mount outside of the rootfs is detached or covered, and no mount at or below
the rootfs is. -/
structure HostHidden (g : MoveGuest) (es : List MountLine) (rootfs : Chars) (h : List MoveCall) :
    Prop where
  outside : ∀ e ∈ es, e.Pseudo → ¬ (lexical rootfs).names <:+ e.place →
    ¬ hostMounting.Shown (g.after h) (.listed e)
  below : ∀ e ∈ es, (lexical rootfs).names <:+ e.place → .listed e ∈ g.after h ∧
    (hostMounting.Shown g.atFirst (.listed e) → hostMounting.Shown (g.after h) (.listed e))

/-- What the kernel made of the `umount2` calls, the first of them first. -/
def umountAnswers (fault : List MoveCall → MoveCall → Option Errno) (h : List MoveCall) :
    List Handling :=
  (handlings fault h).map Prod.snd

/-- The loop handles the line. -/
def MountLine.Handled (e : MountLine) (rootfs : Chars) : Prop :=
  e.Pseudo ∧ ¬ (lexical rootfs).text <+: (lexical e.mountPoint).text

instance {e : MountLine} {rootfs : Chars} : Decidable (e.Handled rootfs) :=
  inferInstanceAs (Decidable (_ ∧ _))

/-- The steps of the loop over a table, with the kernel's answers. -/
def loopSteps (es : List MountLine) (rootfs : Chars) (answers : List Handling) :
    List (List Chars × Handling) :=
  ((es.filter fun e => e.Handled rootfs).map MountLine.called).zip answers

/-- Whenever a proc or sysfs mount outside of the rootfs is in view, at first or because a detach has
just taken off what was over it, the loop is still to come to its place or to one above; and no
detach takes off a mount at or below the rootfs. -/
structure Clears (T : List HostMount) (es : List MountLine) (rootfs : Chars)
    (steps : List (List Chars × Handling)) : Prop where
  first : ∀ e ∈ es, e.Pseudo → ¬ (lexical rootfs).names <:+ e.place →
    hostMounting.Shown T (.listed e) → ∃ x ∈ steps, x.1 <:+ e.place
  later : ∀ e ∈ es, e.Pseudo → ¬ (lexical rootfs).names <:+ e.place →
    hostMounting.Returns (.listed e) steps T
  below : ∀ e ∈ es, (lexical rootfs).names <:+ e.place → hostMounting.Spares (.listed e) steps T

section
variable {g : MoveGuest} {h l : List MoveCall} {c : MoveCall} {es : List MountLine}
variable {e : MountLine} {info : Info} {absRoot path rootfs : Chars} {place : List Chars}
variable {fault : List MoveCall → MoveCall → Option Errno} {T : List HostMount}

theorem call_eq_ok : g.call c h = (.ok (), l) ↔ g.fault h c = none ∧ l = c :: h := by
  rw [MoveGuest.call, Prod.mk.injEq, syscall_eq_ok, eq_comm (a := l)]

/-- A call that neither unmounts nor mounts something of a type. -/
def MoveCall.Idle : MoveCall → Prop
  | .umount2 _ _ => False
  | .mount _ _ (some _) _ => False
  | _ => True

theorem mountsAfter_idle (fault : List MoveCall → MoveCall → Option Errno) (hc : c.Idle) :
    mountsAfter fault T (c :: h) = mountsAfter fault T h ∧
      handlings fault (c :: h) = handlings fault h := by
  cases c with
  | chdir path => exact ⟨ite_self _, rfl⟩
  | umount2 target flags => exact hc.elim
  | chroot path => exact ⟨ite_self _, rfl⟩
  | mount source target fstype flags =>
    cases fstype with
    | none => exact ⟨ite_self _, rfl⟩
    | some fstype => exact hc.elim

/-- What is known of the calls of the loop so far: the places were handled as the answers say. -/
structure Handles (g : MoveGuest) (h : List MoveCall) : Prop where
  after : g.after h = hostMounting.handleAll (handlings g.fault h) g.atFirst
  legal : hostMounting.Legal (handlings g.fault h) g.atFirst

theorem legal_concat {steps : List (List Chars × Handling)} {x : List Chars × Handling}
    (hl : hostMounting.Legal steps T)
    (hx : x.2 = .detached → hostMounting.Rooted (hostMounting.handleAll steps T) x.1) :
    hostMounting.Legal (steps ++ [x]) T := by
  induction steps generalizing T with
  | nil => exact ⟨hx, trivial⟩
  | cons y steps ih => exact ⟨hl.1, ih hl.2 hx⟩

theorem Handles.idle (hh : Handles g h) (hc : c.Idle) : Handles g (c :: h) ∧
    handlings g.fault (c :: h) = handlings g.fault h := by
  obtain ⟨hafter, hlist⟩ := mountsAfter_idle (T := g.atFirst) (h := h) g.fault hc
  refine ⟨⟨?_, ?_⟩, hlist⟩
  · rw [MoveGuest.after, hafter, hlist]
    exact hh.after
  · rw [hlist]
    exact hh.legal

/-- The place is detached, or else covered. -/
theorem detachOrCover_eq_ok (hh : Handles g h) (hr : detachOrCover g path h = (.ok (), l)) :
    Handles g l ∧ ∃ a, handlings g.fault l = handlings g.fault h ++ [((lexical path).names, a)] := by
  have hafter := hh.after
  rw [MoveGuest.after] at hafter
  rw [detachOrCover] at hr
  cases hf : g.fault h (.umount2 path MNT_DETACH) with
  | none =>
    rw [hf] at hr
    cases hr
    have hlist : handlings g.fault (.umount2 path MNT_DETACH :: h) =
        handlings g.fault h ++ [((lexical path).names, .detached)] := by
      rw [handlings, hf]
      rfl
    have hroot := g.umount2_root h path hf
    refine ⟨⟨?_, ?_⟩, .detached, hlist⟩
    · rw [MoveGuest.after, mountsAfter, hf, hlist, Mounting.handleAll, List.foldl_append, hafter]
      rfl
    · rw [hlist]
      apply legal_concat hh.legal
      intro _
      rw [← hafter]
      exact hroot
  | some e =>
    rw [hf] at hr
    dsimp only at hr
    split at hr
    · cases hr
    · obtain ⟨hcover, rfl⟩ := call_eq_ok.1 hr
      have hlist : handlings g.fault (.mount (some "tmpfs".toList) path (some "tmpfs") 0 ::
            .umount2 path MNT_DETACH :: h) =
          handlings g.fault h ++ [((lexical path).names, .covered)] := by
        rw [handlings, handlings, hf]
        · rfl
        · intro _ _ h
          cases h
      refine ⟨⟨?_, ?_⟩, .covered, hlist⟩
      · rw [MoveGuest.after, mountsAfter, hcover, mountsAfter, hf, hlist, Mounting.handleAll,
          List.foldl_append, hafter]
        rfl
      · rw [hlist]
        exact legal_concat hh.legal fun h => by cases h

/-- The loop handles the mount. -/
def Handled (absRoot : Chars) (info : Info) : Prop :=
  (info.fstype = "proc".toList ∨ info.fstype = "sysfs".toList) ∧
    ¬ absRoot <+: (lexical info.mountPoint).text

theorem lexical_text (c : Canonical) : (lexical c.text).names = c.names := by
  change walk [] (pathSteps c.text) = _
  rw [Canonical.pathSteps_text, walk_down, List.append_nil]

instance : Decidable (Handled absRoot info) := inferInstanceAs (Decidable (_ ∧ _))

/-- One pass of the loop. -/
theorem clearMount_eq_ok (ha : g.absolutize h info.mountPoint = .ok (lexical info.mountPoint).text)
    (hh : Handles g h) (hr : clearMount g absRoot info h = (.ok (), l)) : Handles g l ∧
      (handlings g.fault l).map Prod.fst = (handlings g.fault h).map Prod.fst ++
        if Handled absRoot info then [(lexical info.mountPoint).names] else [] := by
  have habs : g.absolutized info.mountPoint h = (.ok (lexical info.mountPoint).text, h) := by
    rw [MoveGuest.absolutized, ha]
  rw [clearMount, Act.bind_ok habs] at hr
  split at hr
  · rename_i hskip
    cases hr
    have hnot : ¬ Handled absRoot info := by
      intro hh
      rcases hskip with hf | hp
      · exact hh.1.elim hf.1 hf.2
      · exact hh.2 hp
    rw [if_neg hnot, List.append_nil]
    exact ⟨hh, rfl⟩
  · rename_i hgo
    rw [not_or, not_and_or, not_not, not_not] at hgo
    obtain ⟨a, u, hslave, hdetach⟩ := Act.bind_eq_ok.1 hr
    obtain ⟨-, rfl⟩ := call_eq_ok.1 hslave
    obtain ⟨hidle, hlist⟩ := hh.idle
      (c := .mount none (lexical info.mountPoint).text none (MS_SLAVE ||| MS_REC)) trivial
    obtain ⟨hl, b, hb⟩ := detachOrCover_eq_ok hidle hdetach
    refine ⟨hl, ?_⟩
    have hhandled : Handled absRoot info := hgo
    rw [hb, hlist, lexical_text, List.map_append, if_pos hhandled]
    rfl

theorem clearMounts_eq_ok {infos : List Info}
    (ha : ∀ i ∈ infos, ∀ h, g.absolutize h i.mountPoint = .ok (lexical i.mountPoint).text)
    (hh : Handles g h) (hr : infos.forM (clearMount g absRoot) h = (.ok (), l)) : Handles g l ∧
      (handlings g.fault l).map Prod.fst = (handlings g.fault h).map Prod.fst ++
        (infos.filter fun i => Handled absRoot i).map fun i => (lexical i.mountPoint).names := by
  induction infos generalizing h with
  | nil =>
    cases hr
    exact ⟨hh, (List.append_nil _).symm⟩
  | cons i infos ih =>
    obtain ⟨hi, ha⟩ := List.forall_mem_cons.1 ha
    obtain ⟨a, u, hstep, hrest⟩ := Act.bind_eq_ok.1 hr
    obtain ⟨hu, hplaces⟩ := clearMount_eq_ok (hi h) hh hstep
    obtain ⟨hl, hrest⟩ := ih ha hu hrest
    refine ⟨hl, ?_⟩
    rw [hrest, hplaces, List.append_assoc]
    by_cases hc : Handled absRoot i
    · have hd : decide (Handled absRoot i) = true := decide_eq_true hc
      rw [if_pos hc, List.filter_cons, if_pos hd]
      rfl
    · have hd : ¬ decide (Handled absRoot i) = true := by simpa using hc
      rw [if_neg hc, List.filter_cons, if_neg hd]
      rfl

theorem splitDash_ne_nil (l : Chars) : splitDash l ≠ [] := by
  fun_induction splitDash l with
  | case1 => exact List.cons_ne_nil _ _
  | case2 c rest _ ih => exact fun h => ih (List.modifyHead_eq_nil_iff.1 h)
  | case3 => exact List.cons_ne_nil _ _

/-- A line that is parsed has its fields in the entry. -/
theorem parseInfo_text (hg : g.Reads es) (he : e ∈ es)
    (hi : parseInfo g (stripReturn e.text) = .ok info) :
    info.mountPoint = e.mountPoint ∧ info.fstype = e.fstype := by
  obtain ⟨f, hlead, hm⟩ := hg.lead e he
  obtain ⟨source, vfsOpts, htail⟩ := hg.tail e he
  have ho : ' ' ∉ stripReturn e.options := fun h => e.options_ok.1 (mem_of_mem_stripReturn h)
  rw [parseInfo, hlead, Outcome.ok_bind, e.splitDash_text] at hi
  by_cases hs : e.source = ['-']
  · rw [hs, splitDash_hyphen e.fstype_ok.1] at hi
    obtain ⟨x, xs, hx⟩ := List.exists_cons_of_ne_nil (splitDash_ne_nil (stripReturn e.options))
    rw [hx] at hi
    cases hi
  · rw [splitDash_post e.fstype_ok.1 ⟨e.source_ok.1, hs⟩ ho] at hi
    dsimp only at hi
    rw [htail] at hi
    cases hi
    exact ⟨hm, rfl⟩

theorem parseMountTable_eq_ok {infos : List Info} (hg : g.Reads es)
    (h : parseMountTable g = .ok infos) :
    List.Forall₂ (fun e i => i.mountPoint = e.mountPoint ∧ i.fstype = e.fstype) es infos := by
  have hread : readToString g.read MOUNTS = .ok (fileText (es.map MountLine.text)) := by
    rw [readToString, hg.read]
  have hlines : lines (fileText (es.map MountLine.text)) =
      es.map fun e => stripReturn e.text := by
    rw [lines_fileText, List.map_map]
    · rfl
    · intro l hl
      obtain ⟨e, -, rfl⟩ := List.mem_map.1 hl
      exact e.newline_notMem
  rw [parseMountTable, hread, Outcome.ok_bind, hlines] at h
  have hparsed := Outcome.mapM_eq_ok.1 h
  rw [List.forall₂_map_left_iff] at hparsed
  refine List.Forall₂.imp ?_ ((List.forall₂_and_left _ _).2 ⟨fun e he => he, hparsed⟩)
  exact fun e i hi => parseInfo_text hg hi.1 hi.2

theorem handled_places {infos : List Info}
    (hf : List.Forall₂ (fun e i => i.mountPoint = e.mountPoint ∧ i.fstype = e.fstype) es infos) :
    ((infos.filter fun i => Handled (lexical rootfs).text i).map fun i =>
        (lexical i.mountPoint).names) =
      (es.filter fun e => e.Handled rootfs).map MountLine.called := by
  induction hf with
  | nil => rfl
  | @cons e i es infos hi _ ih =>
    have hsame : Handled (lexical rootfs).text i ↔ e.Handled rootfs := by
      rw [Handled, MountLine.Handled, MountLine.Pseudo, hi.1, hi.2]
    by_cases he : e.Handled rootfs
    · have hd : decide (Handled (lexical rootfs).text i) = true := decide_eq_true (hsame.2 he)
      have hd' : decide (e.Handled rootfs) = true := decide_eq_true he
      rw [List.filter_cons, if_pos hd, List.filter_cons, if_pos hd', List.map_cons, List.map_cons,
        ih, hi.1]
      rfl
    · have hd : ¬ decide (Handled (lexical rootfs).text i) = true := by simpa using mt hsame.1 he
      have hd' : ¬ decide (e.Handled rootfs) = true := by simpa using he
      rw [List.filter_cons, if_neg hd, List.filter_cons, if_neg hd', ih]

theorem absolute_of_forall₂ {infos : List Info}
    (hf : List.Forall₂ (fun e i => i.mountPoint = e.mountPoint ∧ i.fstype = e.fstype) es infos)
    (ha : ∀ e ∈ es, e.mountPoint.head? = some '/') :
    ∀ i ∈ infos, i.mountPoint.head? = some '/' := by
  induction hf with
  | nil => exact List.forall_mem_nil _
  | cons hi _ ih =>
    obtain ⟨he, ha⟩ := List.forall_mem_cons.1 ha
    exact List.forall_mem_cons.2 ⟨hi.1 ▸ he, ih ha⟩

/-- A move that succeeds has handled the lines that the loop does not skip, each in its turn, and
the rootfs is the root of a mount. -/
theorem msMoveRoot_eq_ok {b : Bool} (hg : g.Reads es) (hr : rootfs.head? = some '/')
    (h : msMoveRoot g rootfs [] = (.ok b, l)) : Handles g l ∧
      (handlings g.fault l).map Prod.fst =
        (es.filter fun e => e.Handled rootfs).map MountLine.called ∧
      hostMounting.Rooted (g.after l) (lexical rootfs).names := by
  have habs (h : List MoveCall) : g.absolutized rootfs h = (.ok (lexical rootfs).text, h) := by
    rw [MoveGuest.absolutized, hg.absolutize h rootfs hr]
  obtain ⟨a₁, h₁, hchdir, h⟩ := Act.bind_eq_ok.1 h
  obtain ⟨-, rfl⟩ := call_eq_ok.1 hchdir
  obtain ⟨infos, h₂, hparse, h⟩ := Act.bind_eq_ok.1 h
  rw [Act.lift_apply, Prod.mk.injEq] at hparse
  obtain ⟨hparse, rfl⟩ := hparse
  have hf := parseMountTable_eq_ok hg hparse
  have hinfos : ∀ i ∈ infos, ∀ h,
      g.absolutize h i.mountPoint = .ok (lexical i.mountPoint).text := by
    intro i hi h
    exact hg.absolutize h _ (absolute_of_forall₂ hf hg.absolute i hi)
  rw [Act.bind_ok (habs _)] at h
  obtain ⟨a₂, h₂, hloop, h⟩ := Act.bind_eq_ok.1 h
  obtain ⟨a₃, h₃, hmove, h⟩ := Act.bind_eq_ok.1 h
  obtain ⟨hmoved, rfl⟩ := call_eq_ok.1 hmove
  obtain ⟨a₄, h₄, hchroot, h⟩ := Act.bind_eq_ok.1 h
  obtain ⟨-, rfl⟩ := call_eq_ok.1 hchroot
  obtain ⟨a₅, h₅, hchdir', h⟩ := Act.bind_eq_ok.1 h
  obtain ⟨-, rfl⟩ := call_eq_ok.1 hchdir'
  cases h
  have hstart : Handles g [] := ⟨rfl, trivial⟩
  obtain ⟨hentered, hnone⟩ := hstart.idle (c := .chdir rootfs) trivial
  obtain ⟨hcleared, hplaces⟩ := clearMounts_eq_ok hinfos hentered hloop
  have hroot := g.move_root h₂ _ hmoved
  rw [lexical_text] at hroot
  have hidle := (mountsAfter_idle (T := g.atFirst) (h := h₂)
    (c := .mount (some (lexical rootfs).text) ['/'] none MS_MOVE) g.fault trivial).1
  obtain ⟨hm, hml⟩ := hcleared.idle
    (c := .mount (some (lexical rootfs).text) ['/'] none MS_MOVE) trivial
  obtain ⟨hc, hcl⟩ := hm.idle (c := .chroot ['.']) trivial
  obtain ⟨hd, hdl⟩ := hc.idle (c := .chdir ['/']) trivial
  refine ⟨hd, ?_, ?_⟩
  · rw [hdl, hcl, hml, hplaces, hnone, handled_places hf]
    rfl
  · rw [MoveGuest.after, (mountsAfter_idle (c := .chdir ['/']) g.fault trivial).1,
      (mountsAfter_idle (c := .chroot ['.']) g.fault trivial).1, hidle]
    exact hroot

theorem handlings_eq_loopSteps (hp : (handlings fault h).map Prod.fst =
    (es.filter fun e => e.Handled rootfs).map MountLine.called) :
    handlings fault h = loopSteps es rootfs (umountAnswers fault h) := by
  rw [loopSteps, umountAnswers, ← hp, ← List.unzip_fst, ← List.unzip_snd, List.zip_unzip]

theorem not_duplicate (hg : g.Reads es) : ¬ List.Duplicate (.listed e) g.atFirst := by
  have hinj : Function.Injective HostMount.listed := fun a b h => HostMount.listed.inj h
  have hn : g.atFirst.Nodup := (hg.listed.nodup_iff.1 hg.once).map hinj
  exact List.nodup_iff_forall_not_duplicate.1 hn _

theorem listed_ne_cover (q : List Chars) : HostMount.listed e ≠ hostMounting.cover q := nofun

theorem mem_atFirst (hg : g.Reads es) : .listed e ∈ g.atFirst ↔ e ∈ es := by
  have hinj : Function.Injective HostMount.listed := fun a b h => HostMount.listed.inj h
  rw [MoveGuest.atFirst, List.mem_map_of_injective hinj]
  exact hg.listed.mem_iff.symm

theorem mem_loopSteps {answers : List Handling} {x : List Chars × Handling}
    (h : x ∈ loopSteps es rootfs answers) : ∃ e ∈ es, e.Handled rootfs ∧ x.1 = e.called := by
  obtain ⟨e, he, hx⟩ := List.mem_map.1 (List.of_mem_zip h).1
  obtain ⟨he, hh⟩ := List.mem_filter.1 he
  exact ⟨e, he, of_decide_eq_true hh, hx.symm⟩

/-- No step is at the rootfs or below. -/
theorem loopSteps_outside {answers : List Handling} :
    ∀ x ∈ loopSteps es rootfs answers, ¬ (lexical rootfs).names <:+ x.1 := by
  intro x hx hin
  obtain ⟨e, -, hh, he⟩ := mem_loopSteps hx
  rw [he] at hin
  exact hh.2 (Canonical.text_prefix hin)

theorem hidden_iff_clears (hg : g.Reads es) (hh : Handles g l)
    (hsteps : ∀ x ∈ handlings g.fault l, ¬ (lexical rootfs).names <:+ x.1)
    (hr : hostMounting.Rooted (g.after l) (lexical rootfs).names) :
    HostHidden g es rootfs l ↔ Clears g.atFirst es rootfs (handlings g.fault l) := by
  have hafter := hh.after
  have houtside (e : MountLine) := Mounting.hidden_iff hh.legal (not_duplicate (e := e) hg)
    listed_ne_cover
  have hbelow {e : MountLine} (he : e ∈ es) :
      .listed e ∈ hostMounting.handleAll (handlings g.fault l) g.atFirst ↔
        hostMounting.Spares (.listed e) (handlings g.fault l) g.atFirst :=
    Mounting.mem_handleAll listed_ne_cover ((mem_atFirst hg).2 he)
  rw [hafter] at hr
  constructor
  · intro h
    constructor
    · intro e he hp hout
      have hhid := h.outside e he hp hout
      rw [hafter] at hhid
      exact ((houtside e).1 hhid).1
    · intro e he hp hout
      have hhid := h.outside e he hp hout
      rw [hafter] at hhid
      exact ((houtside e).1 hhid).2
    · intro e he hin
      have hstays := (h.below e he hin).1
      rw [hafter] at hstays
      exact (hbelow he).1 hstays
  · intro h
    constructor
    · intro e he hp hout
      rw [hafter]
      exact (houtside e).2 ⟨h.first e he hp hout, h.later e he hp hout⟩
    · intro e he hin
      have hspared := h.below e he hin
      rw [hafter]
      constructor
      · exact (hbelow he).2 hspared
      · intro hs
        exact Mounting.shown_of_spared (C := []) hh.legal hspared (not_duplicate hg)
          listed_ne_cover hs hin (List.forall_mem_nil _) (List.forall_mem_nil _) hsteps hr

/-- A table on which nothing is mounted over anything, with no blank or backslash in a mount point:
nothing comes back into view. -/
theorem returns_of_allShown {answers : List Handling} (hg : g.Reads es)
    (hshown : ∀ e ∈ es, hostMounting.Shown g.atFirst (.listed e))
    (hplain : ∀ e ∈ es, e.called = e.place)
    (hlen : (loopSteps es rootfs answers).map Prod.fst =
      (es.filter fun e => e.Handled rootfs).map MountLine.called)
    (hl : hostMounting.Legal (loopSteps es rootfs answers) g.atFirst) :
    hostMounting.Returns (.listed e) (loopSteps es rootfs answers) g.atFirst := by
  have hinj : ∀ e ∈ es, ∀ e' ∈ es, e.called = e'.called → e = e' := by
    intro e he e' he' hsame
    rw [hplain e he, hplain e' he'] at hsame
    have hs := hshown e he
    have hs' := hshown e' he'
    rw [Mounting.Shown] at hs hs'
    have hp : hostMounting.place (.listed e) = hostMounting.place (.listed e') := hsame
    rw [hp, hs'] at hs
    exact (HostMount.listed.inj (Option.some_inj.1 hs)).symm
  have hplaces : ((es.filter fun e => e.Handled rootfs).map MountLine.called).Nodup := by
    apply (hg.once.filter _).map_on
    intro e he e' he'
    exact hinj e (List.mem_filter.1 he).1 e' (List.mem_filter.1 he').1
  have hn : ((loopSteps es rootfs answers).map Prod.fst).Nodup := by
    rw [hlen]
    exact hplaces
  have hlisted : ∀ x ∈ g.atFirst, ∀ q, x ≠ hostMounting.cover q := by
    intro x hx q
    obtain ⟨e, -, rfl⟩ := List.mem_map.1 hx
    exact listed_ne_cover q
  have hs : .listed e ∈ g.atFirst → hostMounting.Shown g.atFirst (.listed e) :=
    fun he => hshown e ((mem_atFirst hg).1 he)
  exact Mounting.returns_of_shown (C := []) hl hn (not_duplicate hg) listed_ne_cover hs
    (List.forall_mem_nil _) hlisted (List.forall_mem_nil _)

/-- Then no step is at a place above the rootfs either, since the rootfs is still there to be
moved. -/
theorem apart_of_allShown {answers : List Handling} (hg : g.Reads es)
    (hshown : ∀ e ∈ es, hostMounting.Shown g.atFirst (.listed e))
    (hplain : ∀ e ∈ es, e.called = e.place)
    (hlen : (loopSteps es rootfs answers).map Prod.fst =
      (es.filter fun e => e.Handled rootfs).map MountLine.called)
    (hl : hostMounting.Legal (loopSteps es rootfs answers) g.atFirst)
    (hr : hostMounting.Rooted
      (hostMounting.handleAll (loopSteps es rootfs answers) g.atFirst) (lexical rootfs).names) :
    ∀ x ∈ loopSteps es rootfs answers, ¬ x.1 <:+ (lexical rootfs).names := by
  intro x hx hup
  obtain ⟨m, hm, hplace⟩ := hr
  rcases Mounting.mem_of_handleAll (Mounting.mem_of_view hm).1 with hin | ⟨y, hy, rfl⟩
  · obtain ⟨e, -, rfl⟩ := List.mem_map.1 hin
    rw [← hplace] at hm hup
    have hhidden := (Mounting.hidden_iff hl (not_duplicate hg) listed_ne_cover).2
      ⟨fun _ => ⟨x, hx, hup⟩, returns_of_allShown hg hshown hplain hlen hl⟩
    exact hhidden hm
  · rw [hostMounting.place_cover] at hplace
    have hout := loopSteps_outside y hy
    rw [hplace] at hout
    exact hout List.suffix_rfl

/-- Where nothing is mounted over anything, only a mount point whose text merely extends that of the
rootfs is in the way. -/
theorem clears_iff_sibling {answers : List Handling} (hg : g.Reads es)
    (hshown : ∀ e ∈ es, hostMounting.Shown g.atFirst (.listed e))
    (hplain : ∀ e ∈ es, e.called = e.place)
    (hlen : (loopSteps es rootfs answers).map Prod.fst =
      (es.filter fun e => e.Handled rootfs).map MountLine.called)
    (hl : hostMounting.Legal (loopSteps es rootfs answers) g.atFirst)
    (hr : hostMounting.Rooted
      (hostMounting.handleAll (loopSteps es rootfs answers) g.atFirst) (lexical rootfs).names) :
    Clears g.atFirst es rootfs (loopSteps es rootfs answers) ↔
      ∀ e ∈ es, e.Pseudo → (lexical rootfs).text <+: (lexical e.mountPoint).text →
        (lexical rootfs).names <:+ e.place := by
  have happart := apart_of_allShown hg hshown hplain hlen hl hr
  constructor
  · intro h e he hp hpre
    by_contra hout
    obtain ⟨x, hx, hsuf⟩ := h.first e he hp hout (hshown e he)
    obtain ⟨e', -, hh, hx'⟩ := mem_loopSteps hx
    apply happart x hx
    rw [← hplain e he, hx'] at hsuf
    rw [hx']
    exact Canonical.suffix_of_prefix hsuf hpre hh.2
  · intro h
    constructor
    · intro e he hp hout _
      have hh : e.Handled rootfs := ⟨hp, fun hpre => hout (h e he hp hpre)⟩
      have hmem : e.called ∈ (loopSteps es rootfs answers).map Prod.fst := by
        rw [hlen]
        exact List.mem_map_of_mem (List.mem_filter.2 ⟨he, decide_eq_true hh⟩)
      obtain ⟨x, hx, hsame⟩ := List.mem_map.1 hmem
      refine ⟨x, hx, ?_⟩
      rw [hsame, hplain e he]
    · intro e he hp hout
      exact returns_of_allShown hg hshown hplain hlen hl
    · intro e he hin
      apply Mounting.spares_of_apart hl
      intro x hx hup
      rcases List.suffix_or_suffix_of_suffix hup hin with hroot | hdown
      · exact happart x hx hroot
      · exact loopSteps_outside x hx hdown

end

/-- A guest's kernel detaches and moves what is the root of a mount, and refuses nothing else. -/
def Refused (T : List HostMount) : MoveCall → Prop
  | .umount2 target _ => ¬ hostMounting.Rooted T (lexical target).names
  | .mount (some source) _ none _ => ¬ hostMounting.Rooted T (lexical source).names
  | _ => False

instance {T : List HostMount} {c : MoveCall} : Decidable (Refused T c) := by
  unfold Refused
  split <;> infer_instance

def plainAfter (T : List HostMount) : List MoveCall → List HostMount
  | [] => T
  | c :: h => if Refused (plainAfter T h) c then plainAfter T h else c.effect (plainAfter T h)

def plainFault (T : List HostMount) (h : List MoveCall) (c : MoveCall) : Option Errno :=
  if Refused (plainAfter T h) c then some .EINVAL else none

theorem mountsAfter_plainFault (T : List HostMount) (h : List MoveCall) :
    mountsAfter (plainFault T) T h = plainAfter T h := by
  induction h with
  | nil => rfl
  | cons c h ih =>
    rw [mountsAfter, plainAfter, plainFault, ih]
    by_cases hr : Refused (plainAfter T h) c
    · rw [if_pos hr, if_pos hr]
      rfl
    · rw [if_neg hr, if_neg hr]
      rfl

theorem not_refused {T : List HostMount} {h : List MoveCall} {c : MoveCall}
    (hf : plainFault T h c = none) : ¬ Refused (plainAfter T h) c := by
  intro hr
  rw [plainFault, if_pos hr] at hf
  cases hf

def decimal (ds : Chars) : Int := ds.foldl (fun n d => 10 * n + (d.toNat - 48)) 0

def plainLead (line : Chars) : Outcome ErrorKind LeadFields :=
  match line.splitOn ' ' with
  | id :: parent :: dev :: root :: mountPoint :: opts :: optional :: _ =>
    match dev.splitOn ':' with
    | [major, minor] => .ok ⟨decimal id, decimal parent, decimal major, decimal minor, root,
        mountPoint, opts, optional⟩
    | _ => .err (.msg "match::none")
  | _ => .err (.msg "match::none")

def plainTail (text : Chars) : Outcome ErrorKind (Chars × Chars × Chars) :=
  match text.splitOn ' ' with
  | fstype :: source :: vfsOpts :: _ => .ok (fstype, source, vfsOpts)
  | _ => .err (.msg "match::none")

/-- A guest with the mount table, the earliest mount first, where each scan takes the fields of its
text. -/
def plainMove (es : List MountLine) : MoveGuest where
  read file := if file = MOUNTS then .ok (fileText (es.map MountLine.text)) else .error file
  scanLead := plainLead
  scanTail := plainTail
  absolutize _ path := .ok (lexical path).text
  display _ := "Sys(errno)"
  fault := plainFault (es.reverse.map .listed)
  stack := es.reverse
  umount2_root h target hf := by
    rw [mountsAfter_plainFault]
    exact not_not.1 (not_refused hf)
  move_root h source hf := by
    rw [mountsAfter_plainFault]
    exact not_not.1 (not_refused hf)

/-- The line of a mount with plain options. -/
def plainLine (mountPoint fstype : Chars)
    (hm : ' ' ∉ mountPoint ∧ '\n' ∉ mountPoint ∧ mountPoint ≠ ['-'])
    (hf : ' ' ∉ fstype ∧ '\n' ∉ fstype)
    (hc : fstype ≠ "cgroup".toList ∧ fstype ≠ "cgroup2".toList) : MountLine where
  lead := ["20".toList, "1".toList, "0:4".toList, ['/']]
  mountPoint := mountPoint
  tail := ["rw".toList]
  fstype := fstype
  source := "none".toList
  options := "rw".toList
  lead_length := rfl
  before_ok := by
    intro w hw
    rcases List.mem_append.1 hw with hw | hw
    · have hlead : ∀ w ∈ ["20".toList, "1".toList, "0:4".toList, ['/']],
          ' ' ∉ w ∧ '\n' ∉ w ∧ w ≠ ['-'] := by decide
      exact hlead w hw
    · rcases List.mem_cons.1 hw with rfl | hw
      · exact hm
      · rw [List.mem_singleton.1 hw]
        decide
  fstype_ok := hf
  source_ok := by decide
  options_ok := by decide
  names_ok h := (h.elim hc.1 hc.2).elim

def procLine : MountLine :=
  plainLine "/proc".toList "proc".toList (by decide) (by decide) (by decide)

def rootLine : MountLine :=
  plainLine "/r".toList "ext4".toList (by decide) (by decide) (by decide)

def innerLine : MountLine :=
  plainLine "/r/proc".toList "proc".toList (by decide) (by decide) (by decide)

/-- A mount point whose name only extends that of the rootfs. -/
def siblingLine : MountLine :=
  plainLine "/r-old".toList "proc".toList (by decide) (by decide) (by decide)

def containerTable : List MountLine := [procLine, rootLine, innerLine]

def siblingTable : List MountLine := [procLine, siblingLine, rootLine]

def overLine : MountLine :=
  plainLine "/proc".toList "tmpfs".toList (by decide) (by decide) (by decide)

def coveredTable : List MountLine := [procLine, overLine, rootLine]

theorem plainMove_reads {es : List MountLine} (hn : es.Nodup)
    (hl : ∀ e ∈ es, plainLead (stripReturn e.text) =
      .ok ⟨20, 1, 0, 4, ['/'], e.mountPoint, "rw".toList, ['-']⟩)
    (ht : ∀ e ∈ es, plainTail (e.fstype ++ ' ' :: (e.source ++ ' ' :: stripReturn e.options)) =
      .ok (e.fstype, "none".toList, "rw".toList))
    (ha : ∀ e ∈ es, e.mountPoint.head? = some '/') : (plainMove es).Reads es where
  listed := (List.reverse_perm es).symm
  once := hn
  read := rfl
  lead e he := ⟨_, hl e he, rfl⟩
  tail e he := ⟨_, _, ht e he⟩
  absolute := ha
  absolutize _ _ _ := rfl

-- A tmpfs over a proc mount: the loop detaches the tmpfs, and the proc mount is there again.
example : (msMoveRoot (plainMove coveredTable) "/r".toList []).1 = .ok true ∧
    hostMounting.Shown ((plainMove coveredTable).after
      (msMoveRoot (plainMove coveredTable) "/r".toList []).2) (.listed procLine) := by
  decide +kernel

end KataAgent
