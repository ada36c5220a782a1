import KataAgent.RootfsFinish

namespace KataAgent
open Fallible MountViews TreePaths
set_option autoImplicit true

section
variable {φ σ : Type} [DecidableEq σ] {v w : View Chars φ σ} {s : Finishing φ σ}
  {p : List Chars} {g : FinishGuest} {o a : Obj φ σ}

theorem maskLoop (hg : g.Honest) (hs : s.cwd = [])
    (hnull : ∀ a, nullDevice s.view = some a → a.dir = false) (paths : List Chars) :
    Act.Through (paths.forM (maskPath g)) s (∀ path ∈ paths, Maskable g path)
      { s with view := behindMasks s.view paths } := by
  have h := Act.Through.forM (x := maskPath g) (P := Maskable g)
    (f := fun done => { s with view := behindMasks s.view done })
    (fun path done => .of_err (maskPath_ok hs hnull) fun hp => maskPath_err hg hp _) paths []
  rw [List.append_nil, behindMasks_nil,
    behindMasks_congr s.view fun path => List.mem_reverse] at h
  exact h

theorem lockLoop (hg : g.Honest) (hs : s.cwd = [])
    (hw : ∀ x, (s.view.sees x).map Obj.dir = (v.sees x).map Obj.dir) (paths : List Chars) :
    Act.Through (paths.forM (readonlyPath g)) s (∀ path ∈ paths, Lockable g v path)
      { s with view := lockedView v s.view paths } := by
  have h := Act.Through.forM (x := readonlyPath g) (P := Lockable g v)
    (f := fun done => { s with view := lockedView v s.view done })
    (fun path done => .of_err (readonlyPath_ok hs hw) fun hp => readonlyPath_err hg hs hw hp)
    paths []
  rw [List.append_nil, lockedView_nil,
    lockedView_congr v s.view fun path => List.mem_reverse] at h
  exact h

theorem devLoop (locked : List (List Chars)) (hs : s.cwd = [])
    (hw : ∀ x, (w.sees x).map Obj.dir = (v.sees x).map Obj.dir) (mounts : List Mount) :
    Act.Through (mounts.forM (remountDev g)) { s with view := w.sealed locked locked [] }
      (∀ m ∈ mounts, DevLockable g v w locked m)
      { s with view := devView v w locked mounts } := by
  have h := Act.Through.forM (x := remountDev g) (P := DevLockable g v w locked)
    (f := fun done => { s with view := devView v w locked done })
    (fun m done => .of_err (remountDev_ok hs hw) fun hm => remountDev_err hs hw hm) mounts []
  rw [List.append_nil, devView_congr v w locked fun m => List.mem_reverse] at h
  exact h

omit [DecidableEq σ] in
theorem chdirRoot : Act.Through (Act.nix (g.chdir ['/'])) s (g.refused (.chdir ['/']) = none)
    { s with cwd := [] } := by
  have hentered : (s.find ['/'] >>= s.entered) = .ok { s with cwd := [] } := by
    obtain ⟨o, ho, hd⟩ := s.view.root
    rw [find_slash]
    change s.entered [] = _
    rw [Finishing.entered, ho]
    exact if_pos hd
  refine .of_err (fun h => ?_) fun h => ?_
  · rw [Act.nix, FinishGuest.chdir, h, hentered]
  · cases hr : g.refused (.chdir ['/']) with
    | none => exact absurd hr h
    | some e =>
      rw [Act.nix, FinishGuest.chdir, hr]
      exact ⟨_, _, rfl⟩

omit [DecidableEq σ] in
theorem chdirBack_through (olddir : List Chars) : Act.Through (Act.nix (g.chdirBack olddir)) s
    (g.refused .chdirBack = none ∧ (s.view.sees olddir).map Obj.dir = some true)
    { s with cwd := olddir } := by
  refine .of_err (fun h => ?_) fun h => ?_
  · obtain ⟨o, ho, hd⟩ := Option.map_eq_some_iff.1 h.2
    have hentered : s.entered olddir = .ok { s with cwd := olddir } := by
      rw [Finishing.entered, ho]
      exact if_pos hd
    rw [Act.nix, FinishGuest.chdirBack, h.1, hentered]
  · rw [Act.nix, FinishGuest.chdirBack]
    cases hr : g.refused .chdirBack with
    | some e => exact ⟨_, _, rfl⟩
    | none =>
      cases ho : s.view.sees olddir with
      | none =>
        rw [Finishing.entered, ho]
        exact ⟨_, _, rfl⟩
      | some o =>
        have hd : o.dir ≠ true := fun hd => h ⟨hr, by rw [ho, Option.map_some, hd]⟩
        rw [Finishing.entered, ho]
        dsimp only
        rw [if_neg hd]
        exact ⟨_, _, rfl⟩

omit [DecidableEq σ] in
theorem umask_chdirBack (olddir : List Chars) :
    Act.Through (do
        Act.modify fun s => { s with umask := 0o022 }
        Act.nix (g.chdirBack olddir)) s
      (g.refused .chdirBack = none ∧ (s.view.sees olddir).map Obj.dir = some true)
      ⟨s.view, olddir, 0o022⟩ :=
  .after rfl (chdirBack_through (s := { s with umask := 0o022 }) olddir)

def FinishSpec.masks (spec : FinishSpec) : List Chars :=
  spec.linux.elim [] FinishLinux.maskedPaths

def FinishSpec.locks (spec : FinishSpec) : List Chars :=
  spec.linux.elim [] FinishLinux.readonlyPaths

theorem maskAndLock_through (spec : FinishSpec) (hg : g.Honest) (hs : s.cwd = [])
    (hnull : ∀ a, nullDevice s.view = some a → a.dir = false) :
    Act.Through (match spec.linux with | some linux => maskAndLock g linux | none => pure ()) s
      ((∀ path ∈ spec.masks, Maskable g path) ∧ ∀ path ∈ spec.locks, Lockable g s.view path)
      { s with view := lockedView s.view (behindMasks s.view spec.masks) spec.locks } := by
  have hmask := maskLoop hg hs hnull spec.masks
  have hlock := lockLoop (s := { s with view := behindMasks s.view spec.masks }) (v := s.view)
    hg hs (behindMasks_dir s.view spec.masks) spec.locks
  cases hl : spec.linux with
  | some linux =>
    have hm : spec.masks = linux.maskedPaths := by rw [FinishSpec.masks, hl]; rfl
    have hk : spec.locks = linux.readonlyPaths := by rw [FinishSpec.locks, hl]; rfl
    rw [hm] at hmask
    rw [hm, hk] at hlock ⊢
    exact Act.Through.bind (f := fun _ => linux.readonlyPaths.forM (readonlyPath g)) hmask hlock
  | none =>
    have hm : spec.masks = [] := by rw [FinishSpec.masks, hl]; rfl
    have hk : spec.locks = [] := by rw [FinishSpec.locks, hl]; rfl
    rw [hm, hk, behindMasks_nil, lockedView_nil]
    exact .skip s ⟨fun _ h => absurd h List.not_mem_nil, fun _ h => absurd h List.not_mem_nil⟩

/-- The remount of the root. -/
theorem lockRoot (readonly : Bool)
    (hroot : ∀ o, s.view.sees [] = some o → o.mounted = true) :
    Act.Through (if readonly then
        Act.nix (g.mount ['/'] ['/'] (MS_BIND ||| MS_RDONLY ||| MS_NODEV ||| MS_REMOUNT))
      else pure ()) s
      (readonly = true → g.refused (.mount ['/'] ['/']
        (MS_BIND ||| MS_RDONLY ||| MS_NODEV ||| MS_REMOUNT)) = none)
      { s with view := if readonly then s.view.lock [] else s.view } := by
  cases readonly with
  | false => exact .skip s fun h => nomatch h
  | true =>
    obtain ⟨o, ho, -⟩ := s.view.root
    have hflags : (MS_BIND ||| MS_RDONLY ||| MS_NODEV ||| MS_REMOUNT) &&& MS_REMOUNT ≠ 0 ∧
        (MS_BIND ||| MS_RDONLY ||| MS_NODEV ||| MS_REMOUNT) &&& MS_BIND ≠ 0 := by decide
    have hmount := mounted_remount_bind ['/'] hflags.1 hflags.2 (find_slash s) ho (hroot o ho)
    rw [if_pos rfl, if_pos rfl]
    refine .of_err (fun h => ?_) fun h => ?_
    · rw [Act.nix, mount_ok (h rfl) hmount]
    · cases hr : g.refused (.mount ['/'] ['/']
          (MS_BIND ||| MS_RDONLY ||| MS_NODEV ||| MS_REMOUNT)) with
      | none => exact absurd (fun _ => hr) h
      | some e =>
        rw [Act.nix, mount_refused hr]
        exact ⟨_, _, rfl⟩

/-- Without a root in the spec, `finish_rootfs` panics. -/
def RootLockable (g : FinishGuest) (spec : FinishSpec) : Prop :=
  ∃ root, spec.root = some root ∧ (root.readonly = true →
    g.refused (.mount ['/'] ['/'] (MS_BIND ||| MS_RDONLY ||| MS_NODEV ||| MS_REMOUNT)) = none)

/-- When `finish_rootfs` gets to its end. -/
structure Finishable (g : FinishGuest) (spec : FinishSpec) (s : Finishing φ σ) : Prop where
  calls : g.refused .getcwd = none ∧ g.refused (.chdir ['/']) = none ∧
    g.refused .chdirBack = none
  cwd : (s.view.sees s.cwd).map Obj.dir = some true
  masks : ∀ path ∈ spec.masks, Maskable g path
  locks : ∀ path ∈ spec.locks, Lockable g s.view path
  dev : ∀ m ∈ spec.mounts, DevLockable g s.view (behindMasks s.view spec.masks)
    (pathPlaces s.view spec.locks) m
  root : RootLockable g spec

def FinishSpec.rootLocks (spec : FinishSpec) : List (List Chars) :=
  if spec.root.any Root.readonly then [[]] else []

/-- What is seen at the end. -/
def finishedView (spec : FinishSpec) (v : View Chars φ σ) : View Chars φ σ :=
  (behindMasks v spec.masks).sealed (pathPlaces v spec.locks)
    (spec.rootLocks ++ (devLocks v spec.mounts ++ pathPlaces v spec.locks))
    (devSupers v (behindMasks v spec.masks) spec.mounts)

omit [DecidableEq σ] in
theorem behindMasks_mounted {paths : List Chars} (h : ∀ o, v.sees p = some o → o.mounted = true)
    (o : Obj φ σ) (ho : (behindMasks v paths).sees p = some o) : o.mounted = true := by
  rw [behindMasks] at ho
  cases hn : nullDevice v with
  | none =>
    rw [hn] at ho
    exact h o ho
  | some a =>
    rw [hn] at ho
    obtain ⟨b, hb, rfl⟩ := Option.map_eq_some_iff.1 ho
    dsimp only
    split
    · rfl
    · exact h b hb

/-- What comes after the loops. -/
theorem finishRoot (spec : FinishSpec) (olddir : List Chars)
    (hroot : ∀ o, s.view.sees [] = some o → o.mounted = true) :
    Act.Through (do
        let root ← (match spec.root with
          | some root => pure root
          | none => Act.unwind)
        (if root.readonly then
          Act.nix (g.mount ['/'] ['/'] (MS_BIND ||| MS_RDONLY ||| MS_NODEV ||| MS_REMOUNT))
        else pure ())
        Act.modify fun s => { s with umask := 0o022 }
        Act.nix (g.chdirBack olddir)) s
      (RootLockable g spec ∧ g.refused .chdirBack = none ∧
        (s.view.sees olddir).map Obj.dir = some true)
      ⟨if spec.root.any Root.readonly then s.view.lock [] else s.view, olddir, 0o022⟩ := by
  cases hr : spec.root with
  | none =>
    refine .never nofun ?_
    rintro ⟨⟨root, hroot, -⟩, -⟩
    cases hr.symm.trans hroot
  | some root =>
    have hdir : ((if root.readonly then s.view.lock [] else s.view).sees olddir).map Obj.dir =
        (s.view.sees olddir).map Obj.dir := by
      split
      · exact View.remap_dir olddir
      · rfl
    have hlast := umask_chdirBack (g := g) (s := { s with
      view := if root.readonly then s.view.lock [] else s.view }) olddir
    rw [hdir] at hlast
    have hlock := lockRoot (g := g) root.readonly hroot
    have hrest := Act.Through.bind (f := fun _ => _) hlock hlast
    refine .after rfl (hrest.iff ?_)
    refine and_congr_left fun _ => ⟨fun h => ⟨root, hr, h⟩, ?_⟩
    rintro ⟨root', hroot', h⟩
    cases hr.symm.trans hroot'
    exact h

theorem finishRootfs_through (spec : FinishSpec) (hg : g.Honest)
    (hnull : ∀ a, nullDevice s.view = some a → a.dir = false)
    (hroot : ∀ o, s.view.sees [] = some o → o.mounted = true) :
    Act.Through (finishRootfs g spec) s (Finishable g spec s)
      ⟨finishedView spec s.view, s.cwd, 0o022⟩ := by
  cases hc : g.refused .getcwd with
  | some e =>
    refine .of_err (fun h => ?_) fun _ => ⟨.nix e, s, ?_⟩
    · cases hc.symm.trans h.calls.1
    · rw [finishRootfs, Act.bind_err]
      rw [Act.nix, FinishGuest.getcwd, hc]
  | none =>
    have hcwd : Act.nix g.getcwd s = (.ok s.cwd, s) := by
      rw [Act.nix, FinishGuest.getcwd, hc]
    have hmasks := maskAndLock_through (g := g) (s := { s with cwd := [] }) spec hg rfl hnull
    have hdev := devLoop (g := g) (s := { s with cwd := [] })
      (pathPlaces s.view spec.locks) rfl (behindMasks_dir s.view spec.masks)
      spec.mounts
    have hlast := finishRoot (g := g) (s := { s with
      cwd := []
      view := devView s.view (behindMasks s.view spec.masks) (pathPlaces s.view spec.locks)
        spec.mounts }) spec s.cwd (by
          intro o ho
          obtain ⟨b, hb, hsealed⟩ := View.of_sealed_some ho
          exact hsealed.mounted.2 (.inl (behindMasks_mounted hroot b hb)))
    have hview : (if spec.root.any Root.readonly then
        (devView s.view (behindMasks s.view spec.masks) (pathPlaces s.view spec.locks)
          spec.mounts).lock []
        else devView s.view (behindMasks s.view spec.masks) (pathPlaces s.view spec.locks)
          spec.mounts) = finishedView spec s.view := by
      rw [finishedView, FinishSpec.rootLocks]
      split
      · rw [devView, View.lock_sealed fun x hx _ => List.mem_append_right _ hx]
        rfl
      · rfl
    rw [hview] at hlast
    refine .after hcwd ((chdirRoot.bind (hmasks.bind (hdev.bind hlast))).iff ?_)
    have hdirs : ((devView s.view (behindMasks s.view spec.masks)
        (pathPlaces s.view spec.locks) spec.mounts).sees s.cwd).map Obj.dir =
          (s.view.sees s.cwd).map Obj.dir :=
      (View.sealed_dir s.cwd).trans (behindMasks_dir s.view spec.masks s.cwd)
    constructor
    · rintro ⟨hchdir, ⟨hmask, hlock⟩, hdev, hroot, hback, hcwd⟩
      exact ⟨⟨hc, hchdir, hback⟩, hdirs ▸ hcwd, hmask, hlock, hdev, hroot⟩
    · intro h
      exact ⟨h.calls.2.1, ⟨h.masks, h.locks⟩, h.dev, h.root, h.calls.2.2, hdirs.trans h.cwd⟩

/-- What `finish_rootfs` leaves. -/
structure Finished (spec : FinishSpec) (s t : Finishing φ σ) : Prop where
  cwd : t.cwd = s.cwd
  umask : t.umask = 0o022
  /-- Nothing goes, and nothing comes. -/
  places : ∀ x, (t.view.sees x).map Obj.dir = (s.view.sees x).map Obj.dir
  /-- A file that is masked is `/dev/null`. -/
  masked : ∀ path ∈ spec.masks, ∀ p o a, s.view.find [] (pathWays path) = .ok p →
    s.view.sees p = some o → o.dir = false → nullDevice s.view = some a →
    (t.view.sees p).map Obj.file = some a.file
  /-- A directory that is masked is as it was, with what is in it. -/
  kept : ∀ x o, s.view.sees x = some o → o.dir = true ∨ x ∉ pathPlaces s.view spec.masks →
    (t.view.sees x).map Obj.file = some o.file
  /-- What can no longer be written: it is on the mount of a read-only path, on that of `/dev` or of
  its file system, or on that of the root. -/
  readonly : ∀ x o, (behindMasks s.view spec.masks).sees x = some o →
    ∃ o', t.view.sees x = some o' ∧ (o'.readonly = true ↔ o.readonly = true ∨
      (∃ path ∈ spec.locks, ∃ p, s.view.find [] (pathWays path) = .ok p ∧
        (behindMasks s.view spec.masks).Within p x) ∨
      (∃ m ∈ spec.mounts, DevRemount m ∧ ∃ p, devPlace s.view = some p ∧
        if (parseMount m).1 &&& MS_BIND ≠ 0 then (behindMasks s.view spec.masks).Within p x
        else ((behindMasks s.view spec.masks).sees p).map Obj.super = some o.super) ∨
      ((∃ root, spec.root = some root ∧ root.readonly = true) ∧
        (behindMasks s.view spec.masks).Within [] x))

omit [DecidableEq σ] in
theorem toOption_eq_some {r : Except Miss (List Chars)} : r.toOption = some p ↔ r = .ok p := by
  cases r with
  | error m => exact ⟨nofun, nofun⟩
  | ok q => exact ⟨fun h => congrArg Except.ok (Option.some.inj h), fun h => by cases h; rfl⟩

omit [DecidableEq σ] in
theorem mem_pathPlaces {paths : List Chars} :
    p ∈ pathPlaces v paths ↔ ∃ path ∈ paths, v.find [] (pathWays path) = .ok p := by
  simp only [pathPlaces, List.mem_filterMap, toOption_eq_some]

omit [DecidableEq σ] in
theorem mem_devLocks {mounts : List Mount} : p ∈ devLocks v mounts ↔
    ∃ m ∈ mounts, DevRemount m ∧ (parseMount m).1 &&& MS_BIND ≠ 0 ∧ devPlace v = some p := by
  simp only [devLocks, List.mem_flatMap, List.mem_filter, decide_eq_true_iff, Option.mem_toList,
    and_assoc]

omit [DecidableEq σ] in
theorem mem_devSupers {mounts : List Mount} {u : σ} : u ∈ devSupers v w mounts ↔
    ∃ m ∈ mounts, DevRemount m ∧ ¬ (parseMount m).1 &&& MS_BIND ≠ 0 ∧
      ∃ p, devPlace v = some p ∧ (w.sees p).map Obj.super = some u := by
  simp only [devSupers, List.mem_flatMap, List.mem_filter, decide_eq_true_iff, and_assoc,
    List.mem_map, Option.mem_toList, Option.bind_eq_some_iff, Option.map_eq_some_iff]
  refine exists_congr fun m => and_congr_right fun _ => and_congr_right fun _ =>
    and_congr_right fun _ => ⟨?_, ?_⟩
  · rintro ⟨a, ⟨q, hq, ha⟩, hu⟩
    exact ⟨q, hq, a, ha, hu⟩
  · rintro ⟨q, hq, a, ha, hu⟩
    exact ⟨a, ⟨q, hq, ha⟩, hu⟩

theorem mem_rootLocks {spec : FinishSpec} :
    p ∈ spec.rootLocks ↔ (∃ root, spec.root = some root ∧ root.readonly = true) ∧ p = [] := by
  rw [FinishSpec.rootLocks]
  cases hr : spec.root with
  | none => simp
  | some root => cases hread : root.readonly <;> simp [hread]

omit [DecidableEq σ] in
theorem behindMasks_masked {path : Chars} {paths : List Chars} (hpath : path ∈ paths)
    (hp : v.find [] (pathWays path) = .ok p) (ho : v.sees p = some o) (hf : o.dir = false)
    (ha : nullDevice v = some a) (hnull : a.dir = false) :
    (behindMasks v paths).sees p = some a.mount := by
  rw [behindMasks, ha, Option.elim_some, View.covered_sees, ho, Option.map_some,
    if_pos ⟨mem_pathPlaces.2 ⟨path, hpath, hp⟩, hf.trans hnull.symm⟩]

omit [DecidableEq σ] in
theorem behindMasks_kept {paths : List Chars} (ho : v.sees p = some o)
    (hnull : ∀ a, nullDevice v = some a → a.dir = false)
    (h : o.dir = true ∨ p ∉ pathPlaces v paths) : (behindMasks v paths).sees p = some o := by
  rw [behindMasks]
  cases ha : nullDevice v with
  | none => exact ho
  | some a =>
    rw [Option.elim_some, View.covered_sees, ho, Option.map_some, if_neg]
    rintro ⟨hp, hd⟩
    rcases h with h | h
    · cases h.symm.trans (hd.trans (hnull a ha))
    · exact h hp

theorem finishedView_file {spec : FinishSpec} (ho : (behindMasks v spec.masks).sees p = some o) :
    ((finishedView spec v).sees p).map Obj.file = some o.file := by
  obtain ⟨o', ho', hsealed⟩ := View.sealed_some (pathPlaces v spec.locks)
    (spec.rootLocks ++ (devLocks v spec.mounts ++ pathPlaces v spec.locks))
    (devSupers v (behindMasks v spec.masks) spec.mounts) ho
  rw [finishedView, ho', Option.map_some, hsealed.file]

theorem finishedView_readonly {spec : FinishSpec} {x : List Chars}
    (ho : (behindMasks v spec.masks).sees x = some o) :
    ∃ o', (finishedView spec v).sees x = some o' ∧ (o'.readonly = true ↔ o.readonly = true ∨
      (∃ path ∈ spec.locks, ∃ p, v.find [] (pathWays path) = .ok p ∧
        (behindMasks v spec.masks).Within p x) ∨
      (∃ m ∈ spec.mounts, DevRemount m ∧ ∃ p, devPlace v = some p ∧
        if (parseMount m).1 &&& MS_BIND ≠ 0 then (behindMasks v spec.masks).Within p x
        else ((behindMasks v spec.masks).sees p).map Obj.super = some o.super) ∨
      ((∃ root, spec.root = some root ∧ root.readonly = true) ∧
        (behindMasks v spec.masks).Within [] x)) := by
  obtain ⟨o', ho', hsealed⟩ := View.sealed_some (pathPlaces v spec.locks)
    (spec.rootLocks ++ (devLocks v spec.mounts ++ pathPlaces v spec.locks))
    (devSupers v (behindMasks v spec.masks) spec.mounts) ho
  refine ⟨o', ho', hsealed.readonly.trans (or_congr_right ?_)⟩
  simp only [List.mem_append, mem_rootLocks, mem_devLocks, mem_pathPlaces, mem_devSupers]
  constructor
  · rintro (⟨q, ⟨hroot, rfl⟩ | ⟨m, hm, hdev, hb, hq⟩ | ⟨path, hpath, hq⟩, hw⟩ |
      ⟨m, hm, hdev, hb, q, hq, hu⟩)
    · exact .inr (.inr ⟨hroot, hw⟩)
    · exact .inr (.inl ⟨m, hm, hdev, q, hq, by rw [if_pos hb]; exact hw⟩)
    · exact .inl ⟨path, hpath, q, hq, hw⟩
    · exact .inr (.inl ⟨m, hm, hdev, q, hq, by rw [if_neg hb]; exact hu⟩)
  · rintro (⟨path, hpath, q, hq, hw⟩ | ⟨m, hm, hdev, q, hq, h⟩ | ⟨hroot, hw⟩)
    · exact .inl ⟨q, .inr (.inr ⟨path, hpath, hq⟩), hw⟩
    · split at h
      · rename_i hb
        exact .inl ⟨q, .inr (.inl ⟨m, hm, hdev, hb, hq⟩), h⟩
      · rename_i hb
        exact .inr ⟨m, hm, hdev, hb, q, hq, h⟩
    · exact .inl ⟨[], .inl ⟨hroot, rfl⟩, hw⟩

end

private def plainDir (mounted : Bool) (super : Nat) : Obj String Nat :=
  ⟨"", true, mounted, false, super⟩

private def plainFile (name : String) : Obj String Nat := ⟨name, false, false, false, 0⟩

private def plainTree : View Chars String Nat where
  sees x :=
    if x = [] then some (plainDir true 0)
    else if x = ["dev".toList] then some (plainDir true 1)
    else if x = ["proc".toList] then some (plainDir true 2)
    else if x = ["null".toList, "dev".toList] then some (plainFile "null")
    else if x = ["kcore".toList, "proc".toList] then some (plainFile "kcore")
    else if x = ["sys".toList, "proc".toList] then some (plainDir false 2)
    else none
  root := ⟨plainDir true 0, rfl, rfl⟩
  parents := by
    intro name above o h
    have hroot : ∃ d : Obj String Nat, some (plainDir true 0) = some d ∧ d.dir = true :=
      ⟨_, rfl, rfl⟩
    split at h
    · rename_i hx
      cases hx
    · split at h
      · rename_i hx
        cases hx
        exact ⟨_, rfl, rfl⟩
      · split at h
        · rename_i hx
          cases hx
          exact ⟨_, rfl, rfl⟩
        · split at h
          · rename_i hx
            cases hx
            exact ⟨_, rfl, rfl⟩
          · split at h
            · rename_i hx
              cases hx
              exact ⟨_, rfl, rfl⟩
            · split at h
              · rename_i hx
                cases hx
                exact ⟨_, rfl, rfl⟩
              · cases h

private def plainSpec : FinishSpec where
  linux := some ⟨["/proc/kcore".toList, "/proc/sys".toList], ["/proc/sys".toList]⟩
  mounts := [⟨"/dev".toList, "tmpfs", "tmpfs".toList, ["nosuid", "ro"]⟩]
  root := some ⟨"rootfs", true⟩

private theorem plain_honest : FinishGuest.Honest ⟨fun _ => none⟩ := by
  intro source target flags
  constructor
  · intro h
    cases h
  · intro h
    cases h

end KataAgent
