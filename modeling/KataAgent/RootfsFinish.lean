import KataAgent.CopyFile
import KataAgent.MountOptions
import KataAgent.MountViews

namespace KataAgent
open Fallible MountViews TreePaths
set_option autoImplicit true

/-- What `finish_rootfs` reads of a spec's `linux`. -/
structure FinishLinux where
  maskedPaths : List Chars
  readonlyPaths : List Chars

structure FinishSpec where
  linux : Option FinishLinux
  mounts : List Mount
  root : Option Root

/-- The container process, with what it sees. -/
structure Finishing (φ σ : Type) where
  view : View Chars φ σ
  cwd : List Chars
  umask : Nat

/-- The system calls of `finish_rootfs`. -/
inductive FinishCall where
  | getcwd
  | chdir (path : Chars)
  | chdirBack
  | mount (source target : Chars) (flags : MsFlags)
  deriving DecidableEq

section
variable {φ σ : Type} [DecidableEq σ]

def missErrno : Miss → Errno
  | .absent => .ENOENT
  | .notDir => ENOTDIR

def pathWays (path : Chars) : List (Option (Step Chars)) := (path.splitOn '/').map component

/-- Where the kernel finds the path. -/
def Finishing.find (s : Finishing φ σ) (path : Chars) : Except Errno (List Chars) :=
  if path = [] then .error .ENOENT
  else (s.view.find (if path.head? = some '/' then [] else s.cwd) (pathWays path)).mapError
    missErrno

/-- `mount`, as far as the calls here go: all have `MS_BIND` or `MS_REMOUNT`, and with the latter
`MS_RDONLY`. -/
def Finishing.mounted (s : Finishing φ σ) (source target : Chars) (flags : MsFlags) :
    Except Errno (View Chars φ σ) := do
  let p ← s.find target
  if flags &&& MS_REMOUNT ≠ 0 then
    match s.view.sees p with
    | some o =>
      if o.mounted = false then .error .EINVAL
      else if flags &&& MS_BIND ≠ 0 then .ok (s.view.lock p)
      else .ok (s.view.lockSuper o.super)
    | none => .error .ENOENT
  else if source = [] then .error .EINVAL
  else
    let q ← s.find source
    match s.view.bind (decide (flags &&& MS_REC ≠ 0)) q p with
    | some v => .ok v
    | none => .error ENOTDIR

/-- What the kernel refuses on other grounds. -/
structure FinishGuest where
  refused : FinishCall → Option Errno

variable (g : FinishGuest)

def FinishGuest.mount (source target : Chars) (flags : MsFlags) :
    Act (Finishing φ σ) Errno Unit := fun s =>
  match g.refused (.mount source target flags), s.mounted source target flags with
  | some e, _ => (.err e, s)
  | none, .error e => (.err e, s)
  | none, .ok v => (.ok (), { s with view := v })

/-- An error of a system call as one of the agent's. -/
def Act.nix (x : Act τ Errno α) : Act τ ErrorKind α := fun s =>
  match x s with
  | (.ok a, t) => (.ok a, t)
  | (.err e, t) => (.err (.nix e), t)
  | (.panic, t) => (.panic, t)

def FinishGuest.getcwd : Act (Finishing φ σ) Errno (List Chars) := fun s =>
  match g.refused .getcwd with
  | some e => (.err e, s)
  | none => (.ok s.cwd, s)

def Finishing.entered (s : Finishing φ σ) (p : List Chars) : Except Errno (Finishing φ σ) :=
  match s.view.sees p with
  | some o => if o.dir then .ok { s with cwd := p } else .error ENOTDIR
  | none => .error .ENOENT

def FinishGuest.chdir (path : Chars) : Act (Finishing φ σ) Errno Unit := fun s =>
  match g.refused (.chdir path), s.find path >>= s.entered with
  | some e, _ => (.err e, s)
  | none, .error e => (.err e, s)
  | none, .ok t => (.ok (), t)

/-- To the directory that `getcwd` gave. -/
def FinishGuest.chdirBack (olddir : List Chars) : Act (Finishing φ σ) Errno Unit := fun s =>
  match g.refused .chdirBack, s.entered olddir with
  | some e, _ => (.err e, s)
  | none, .error e => (.err e, s)
  | none, .ok t => (.ok (), t)

/-- What `mask_path` and `readonly_path` do not take. -/
def BadPath (path : Chars) : Prop := path.head? ≠ some '/' ∨ "..".toList <:+: path

instance {path : Chars} : Decidable (BadPath path) := inferInstanceAs (Decidable (_ ∨ _))

def maskPath (path : Chars) : Act (Finishing φ σ) ErrorKind Unit := fun s =>
  if BadPath path then (.err (.nix .EINVAL), s)
  else
    match g.mount "/dev/null".toList path MS_BIND s with
    | (.err e, t) => if e ≠ .ENOENT ∧ e ≠ ENOTDIR then (.err (.nix e), t) else (.ok (), t)
    | (_, t) => (.ok (), t)

def readonlyPath (path : Chars) : Act (Finishing φ σ) ErrorKind Unit := fun s =>
  if BadPath path then (.err (.nix .EINVAL), s)
  else
    match g.mount path.tail path (MS_BIND ||| MS_REC) s with
    | (.err e, t) => if e = .ENOENT then (.ok (), t) else (.err (.nix e), t)
    | (_, t) => Act.nix (g.mount path.tail path.tail
        (MS_BIND ||| MS_REC ||| MS_RDONLY ||| MS_REMOUNT)) t

/-- The mounts that the loop over them acts on. -/
def DevRemount (m : Mount) : Prop :=
  m.destination = "/dev".toList ∧ (parseMount m).1 &&& MS_RDONLY ≠ 0

instance {m : Mount} : Decidable (DevRemount m) := inferInstanceAs (Decidable (_ ∧ _))

def remountDev (m : Mount) : Act (Finishing φ σ) ErrorKind Unit :=
  if DevRemount m then
    Act.nix (g.mount "/dev".toList "/dev".toList ((parseMount m).1 ||| MS_REMOUNT))
  else pure ()

def maskAndLock (linux : FinishLinux) : Act (Finishing φ σ) ErrorKind Unit := do
  linux.maskedPaths.forM (maskPath g)
  linux.readonlyPaths.forM (readonlyPath g)

def finishRootfs (spec : FinishSpec) : Act (Finishing φ σ) ErrorKind Unit := do
  let olddir ← Act.nix g.getcwd
  Act.nix (g.chdir ['/'])
  (match spec.linux with
    | some linux => maskAndLock g linux
    | none => pure ())
  spec.mounts.forM (remountDev g)
  let root ← (match spec.root with
    | some root => pure root
    | none => Act.unwind)
  (if root.readonly then
    Act.nix (g.mount ['/'] ['/'] (MS_BIND ||| MS_RDONLY ||| MS_NODEV ||| MS_REMOUNT))
  else pure ())
  Act.modify fun s => { s with umask := 0o022 }
  Act.nix (g.chdirBack olddir)

/-- The places that the paths lead to. -/
def pathPlaces (v : View Chars φ σ) (paths : List Chars) : List (List Chars) :=
  paths.filterMap fun path => (v.find [] (pathWays path)).toOption

/-- What `/dev/null` is. -/
def nullDevice (v : View Chars φ σ) : Option (Obj φ σ) :=
  (v.find [] (pathWays "/dev/null".toList)).toOption.bind v.sees

/-- What is seen once the paths are masked. -/
def behindMasks (v : View Chars φ σ) (paths : List Chars) : View Chars φ σ :=
  (nullDevice v).elim v fun a => v.covered a (pathPlaces v paths)

def devPlace (v : View Chars φ σ) : Option (List Chars) :=
  (v.find [] (pathWays "/dev".toList)).toOption

/-- A pass acts on the mount at `/dev` when the options have a bind. -/
def devLocks (v : View Chars φ σ) (mounts : List Mount) : List (List Chars) :=
  (mounts.filter fun m => DevRemount m ∧ (parseMount m).1 &&& MS_BIND ≠ 0).flatMap fun _ =>
    (devPlace v).toList

/-- Otherwise on the file system that is mounted there. -/
def devSupers (v w : View Chars φ σ) (mounts : List Mount) : List σ :=
  (mounts.filter fun m => DevRemount m ∧ ¬ (parseMount m).1 &&& MS_BIND ≠ 0).flatMap fun _ =>
    ((devPlace v).bind w.sees).toList.map Obj.super

/-- The guest refuses no mount with the two errors that the code does not pass on. -/
def FinishGuest.Honest (g : FinishGuest) : Prop :=
  ∀ source target flags, g.refused (.mount source target flags) ≠ some .ENOENT ∧
    g.refused (.mount source target flags) ≠ some ENOTDIR

end

/-- The action ends, in the state given, just when the condition holds. -/
structure Act.Through (x : Act τ ε Unit) (t : τ) (C : Prop) (t' : τ) : Prop where
  ends : C → x t = (.ok (), t')
  only : (x t).1 = .ok () → C

section
variable {τ ε α : Type} {x y : Act τ ε Unit} {t t' t'' : τ} {C D : Prop}

theorem Act.Through.of_err (hok : C → x t = (.ok (), t'))
    (herr : ¬ C → ∃ e u, x t = (.err e, u)) : Act.Through x t C t' := by
  refine ⟨hok, fun h => ?_⟩
  by_contra hc
  obtain ⟨e, u, he⟩ := herr hc
  rw [he] at h
  cases h

theorem Act.Through.skip (t : τ) (hc : C) : Act.Through (pure () : Act τ ε Unit) t C t :=
  ⟨fun _ => rfl, fun _ => hc⟩

theorem Act.Through.bind {f : Unit → Act τ ε Unit} (hx : Act.Through x t C t')
    (hf : Act.Through (f ()) t' D t'') : Act.Through (x >>= f) t (C ∧ D) t'' := by
  constructor
  · rintro ⟨hc, hd⟩
    rw [Act.bind_ok (hx.ends hc), hf.ends hd]
  · intro h
    match hxt : x t with
    | (.ok (), u) =>
      have hc := hx.only (congrArg Prod.fst hxt)
      rw [Act.bind_ok (hx.ends hc)] at h
      exact ⟨hc, hf.only h⟩
    | (.err e, u) =>
      rw [Act.bind_err hxt] at h
      cases h
    | (.panic, u) =>
      rw [Act.bind_panic hxt] at h
      cases h

theorem Act.Through.after {x : Act τ ε α} {f : α → Act τ ε Unit} {a : α}
    (hx : x t = (.ok a, t')) (hf : Act.Through (f a) t' C t'') :
    Act.Through (x >>= f) t C t'' := by
  constructor
  · intro hc
    rw [Act.bind_ok hx, hf.ends hc]
  · intro h
    rw [Act.bind_ok hx] at h
    exact hf.only h

theorem Act.Through.never (hx : (x t).1 ≠ .ok ()) (hc : ¬ C) : Act.Through x t C t' :=
  ⟨fun h => absurd h hc, fun h => absurd h hx⟩

theorem Act.Through.iff (hx : Act.Through x t C t') (h : C ↔ D) : Act.Through x t D t' :=
  ⟨fun hd => hx.ends (h.2 hd), fun hok => h.1 (hx.only hok)⟩

/-- A loop, each pass of which adds its item to the state. -/
theorem Act.Through.forM {x : α → Act τ ε Unit} {f : List α → τ} {P : α → Prop}
    (hx : ∀ a done, Act.Through (x a) (f done) (P a) (f (a :: done))) (l done : List α) :
    Act.Through (l.forM x) (f done) (∀ a ∈ l, P a) (f (l.reverse ++ done)) := by
  induction l generalizing done with
  | nil => exact .skip _ fun a ha => absurd ha List.not_mem_nil
  | cons a l ih =>
    rw [List.reverse_cons, List.append_assoc, List.forM_eq_forM, List.forM_cons]
    exact ((hx a done).bind (ih (a :: done))).iff (List.forall_mem_cons).symm

end

section
variable {φ σ : Type} {v w : View Chars φ σ} {s : Finishing φ σ} {path rest : Chars}
  {p : List Chars}

theorem find_root (hs : s.cwd = []) (hp : path ≠ []) :
    s.find path = (s.view.find [] (pathWays path)).mapError missErrno := by
  rw [Finishing.find, if_neg hp, hs, ite_self]

/-- From the root, a path is found with its first slash or without it. -/
theorem find_cons_slash (v : View Chars φ σ) (rest : Chars) :
    v.find [] (pathWays ('/' :: rest)) = v.find [] (pathWays rest) := by
  have hsplit : ('/' :: rest).splitOn '/' = [] :: rest.splitOn '/' :=
    List.splitOn_append_cons_self [] rest
  obtain ⟨o, ho, hd⟩ := v.root
  rw [pathWays, hsplit, List.map_cons, View.find, ho]
  dsimp only
  rw [if_pos hd]
  rfl

theorem pathPlaces_cons_ok (h : v.find [] (pathWays path) = .ok p) (paths : List Chars) :
    pathPlaces v (path :: paths) = p :: pathPlaces v paths := by
  rw [pathPlaces, List.filterMap_cons, h]
  rfl

theorem pathPlaces_cons_error {m : Miss} (h : v.find [] (pathWays path) = .error m)
    (paths : List Chars) : pathPlaces v (path :: paths) = pathPlaces v paths := by
  rw [pathPlaces, List.filterMap_cons, h]
  rfl

theorem behindMasks_dir (v : View Chars φ σ) (paths : List Chars) (x : List Chars) :
    ((behindMasks v paths).sees x).map Obj.dir = (v.sees x).map Obj.dir := by
  rw [behindMasks]
  cases nullDevice v with
  | none => rfl
  | some a => exact View.covered_dir x

/-- What may go wrong on a path, of what the kernel finds there. -/
theorem find_cases (hs : s.cwd = []) (hp : path ≠ [])
    (hv : ∀ x, (s.view.sees x).map Obj.dir = (v.sees x).map Obj.dir) :
    s.find path = (v.find [] (pathWays path)).mapError missErrno := by
  rw [find_root hs hp, View.find_congr hv]

section
variable [DecidableEq σ] {g : FinishGuest} {o a : Obj φ σ} {q : List Chars}

theorem mount_refused {source target : Chars} {flags : MsFlags}
    (h : g.refused (.mount source target flags) = some e) :
    g.mount source target flags s = (.err e, s) := by
  rw [FinishGuest.mount, h]

theorem mount_error {source target : Chars} {flags : MsFlags} {e : Errno}
    (h : g.refused (.mount source target flags) = none)
    (hm : s.mounted source target flags = .error e) :
    g.mount source target flags s = (.err e, s) := by
  rw [FinishGuest.mount, h, hm]

theorem mount_ok {source target : Chars} {flags : MsFlags}
    (h : g.refused (.mount source target flags) = none)
    (hm : s.mounted source target flags = .ok w) :
    g.mount source target flags s = (.ok (), { s with view := w }) := by
  rw [FinishGuest.mount, h, hm]

/-- A bind mount of one thing on another. -/
theorem mounted_bind {source target : Chars} {flags : MsFlags} (hf : flags &&& MS_REMOUNT = 0)
    (hne : source ≠ []) (ht : s.find target = .ok p) (hs : s.find source = .ok q) :
    s.mounted source target flags =
      match s.view.bind (decide (flags &&& MS_REC ≠ 0)) q p with
      | some v => .ok v
      | none => .error ENOTDIR := by
  rw [Finishing.mounted, ht]
  simp only [hf, hne, ne_eq, not_true_eq_false, if_false, hs]
  rfl

/-- A bind mount of nothing. -/
theorem mounted_empty {target : Chars} {flags : MsFlags} (hf : flags &&& MS_REMOUNT = 0)
    (ht : s.find target = .ok p) : s.mounted [] target flags = .error .EINVAL := by
  rw [Finishing.mounted, ht]
  simp only [hf, ne_eq, not_true_eq_false, if_false, if_true]
  rfl

theorem missErrno_cases (m : Miss) : missErrno m = .ENOENT ∨ missErrno m = ENOTDIR := by
  cases m with
  | absent => exact .inl rfl
  | notDir => exact .inr rfl

theorem mounted_target_error {source target : Chars} {flags : MsFlags} {e : Errno}
    (ht : s.find target = .error e) : s.mounted source target flags = .error e := by
  rw [Finishing.mounted, ht]
  rfl

theorem mounted_source_error {source target : Chars} {flags : MsFlags} {e : Errno}
    (hf : flags &&& MS_REMOUNT = 0) (hne : source ≠ []) (ht : s.find target = .ok p)
    (hs : s.find source = .error e) : s.mounted source target flags = .error e := by
  rw [Finishing.mounted, ht]
  simp only [hf, hne, ne_eq, not_true_eq_false, if_false, hs]
  rfl

theorem devNull_ne : "/dev/null".toList ≠ [] := by decide

/-- The null device covers a file, and does not cover a directory. -/
theorem mounted_mask_found {done p : List Chars} (hs : s.cwd = [])
    (hv : s.view = behindMasks v done) (hnull : ∀ a, nullDevice v = some a → a.dir = false)
    (hp : path ≠ []) (htarget : v.find [] (pathWays path) = .ok p)
    (hsource : v.find [] (pathWays "/dev/null".toList) = .ok q) :
    s.mounted "/dev/null".toList path MS_BIND = .ok (behindMasks v (path :: done)) ∨
      s.mounted "/dev/null".toList path MS_BIND = .error ENOTDIR ∧
        behindMasks v (path :: done) = behindMasks v done := by
  have hdir : ∀ x, (s.view.sees x).map Obj.dir = (v.sees x).map Obj.dir :=
    hv ▸ behindMasks_dir v done
  have hfind := find_cases hs hp hdir
  have hfind0 := find_cases hs devNull_ne hdir
  rw [htarget] at hfind
  rw [hsource] at hfind0
  obtain ⟨a, ha⟩ := View.find_sees hsource
  obtain ⟨b, hb⟩ := View.find_sees htarget
  have hn : nullDevice v = some a := by
    rw [nullDevice, hsource]
    exact ha
  have hafile := hnull a hn
  have hview : s.view = v.covered a (pathPlaces v done) := by
    rw [hv, behindMasks, hn]
    rfl
  -- masks made before may cover the null device itself, by itself
  have hsees : ∃ a', s.view.sees q = some a' ∧ a'.mount = a.mount ∧ a'.dir = a.dir := by
    rw [hview, View.covered_sees, ha]
    refine ⟨_, rfl, ?_⟩
    dsimp only
    split
    · exact ⟨rfl, rfl⟩
    · exact ⟨rfl, rfl⟩
  obtain ⟨a', ha', hmount, hdira⟩ := hsees
  obtain ⟨b', hb', hdirb⟩ : ∃ b', s.view.sees p = some b' ∧ b'.dir = b.dir := by
    have h := hdir p
    rw [hb] at h
    exact Option.map_eq_some_iff.1 h
  rw [mounted_bind (by decide) devNull_ne hfind hfind0]
  have hmasks : behindMasks v (path :: done) = v.covered a (p :: pathPlaces v done) := by
    rw [behindMasks, hn, pathPlaces_cons_ok htarget]
    rfl
  by_cases hbd : b.dir = false
  · left
    rw [View.bind_file ha' (hdira.trans hafile) hb' (hdirb.trans hbd)]
    have hcover : s.view.cover a' p = s.view.cover a p := by
      simp only [View.cover, hmount, hdira]
    rw [hcover, hview, View.cover_covered, hmasks]
  · right
    constructor
    · rw [View.bind_eq_none ha' hb' fun h => hbd (hdirb.symm.trans (h.symm.trans
        (hdira.trans hafile)))]
    · rw [hmasks, View.covered_cons_dir hb fun h => hbd (h.trans hafile), behindMasks, hn]
      rfl

/-- What the kernel makes of a mask. -/
theorem mounted_mask {done : List Chars} (hs : s.cwd = []) (hv : s.view = behindMasks v done)
    (hnull : ∀ a, nullDevice v = some a → a.dir = false) (hp : path ≠ []) :
    s.mounted "/dev/null".toList path MS_BIND = .ok (behindMasks v (path :: done)) ∨
      ∃ e, (e = .ENOENT ∨ e = ENOTDIR) ∧
        s.mounted "/dev/null".toList path MS_BIND = .error e ∧
          behindMasks v (path :: done) = behindMasks v done := by
  have hdir : ∀ x, (s.view.sees x).map Obj.dir = (v.sees x).map Obj.dir :=
    hv ▸ behindMasks_dir v done
  have hfind := find_cases hs hp hdir
  cases htarget : v.find [] (pathWays path) with
  | error m =>
    rw [htarget] at hfind
    refine .inr ⟨missErrno m, missErrno_cases m, mounted_target_error hfind, ?_⟩
    simp only [behindMasks, pathPlaces_cons_error htarget]
  | ok p =>
    rw [htarget] at hfind
    have hfind0 := find_cases hs devNull_ne hdir
    cases hsource : v.find [] (pathWays "/dev/null".toList) with
    | error m =>
      rw [hsource] at hfind0
      refine .inr ⟨missErrno m, missErrno_cases m,
        mounted_source_error (by decide) devNull_ne hfind hfind0, ?_⟩
      have hn : nullDevice v = none := by rw [nullDevice, hsource]; rfl
      simp only [behindMasks, hn, Option.elim_none]
    | ok q =>
      exact (mounted_mask_found hs hv hnull hp htarget hsource).imp_right fun h =>
        ⟨ENOTDIR, .inr rfl, h⟩

/-- A path is masked, or found not to be a file, unless it is a bad one or the guest refuses. -/
structure Maskable (g : FinishGuest) (path : Chars) : Prop where
  good : ¬ BadPath path
  unrefused : g.refused (.mount "/dev/null".toList path MS_BIND) = none

theorem ne_nil_of_good (h : ¬ BadPath path) : path ≠ [] := by
  rintro rfl
  exact h (.inl (by decide))

theorem maskPath_ok {done : List Chars} (hs : s.cwd = [])
    (hnull : ∀ a, nullDevice v = some a → a.dir = false) (hp : Maskable g path) :
    maskPath g path { s with view := behindMasks v done } =
      (.ok (), { s with view := behindMasks v (path :: done) }) := by
  rw [maskPath, if_neg hp.good]
  rcases mounted_mask (s := { s with view := behindMasks v done }) hs rfl hnull
    (ne_nil_of_good hp.good) with hm | ⟨e, he, hm, hsame⟩
  · rw [mount_ok hp.unrefused hm]
  · rw [mount_error hp.unrefused hm, hsame]
    dsimp only
    rw [if_neg]
    rintro ⟨hne, hne'⟩
    rcases he with rfl | rfl
    · exact hne rfl
    · exact hne' rfl

theorem maskPath_err (hg : g.Honest) (hp : ¬ Maskable g path) (s : Finishing φ σ) :
    ∃ e t, maskPath g path s = (.err e, t) := by
  rw [maskPath]
  split
  · exact ⟨_, _, rfl⟩
  · rename_i hgood
    cases hr : g.refused (.mount "/dev/null".toList path MS_BIND) with
    | none => exact absurd ⟨hgood, hr⟩ hp
    | some e =>
      have hne := hg "/dev/null".toList path MS_BIND
      rw [hr] at hne
      rw [mount_refused hr]
      dsimp only
      rw [if_pos ⟨fun h => hne.1 (congrArg some h), fun h => hne.2 (congrArg some h)⟩]
      exact ⟨_, _, rfl⟩

omit [DecidableEq σ] in
/-- Membership is all that counts. -/
theorem behindMasks_congr (v : View Chars φ σ) {l m : List Chars}
    (h : ∀ path, path ∈ l ↔ path ∈ m) :
    behindMasks v l = behindMasks v m := by
  have hmem (x : List Chars) : x ∈ pathPlaces v l ↔ x ∈ pathPlaces v m := by
    simp only [pathPlaces, List.mem_filterMap, h]
  rw [behindMasks, behindMasks]
  cases nullDevice v with
  | none => rfl
  | some a => exact View.covered_congr hmem

omit [DecidableEq σ] in
theorem behindMasks_nil (v : View Chars φ σ) : behindMasks v [] = v := by
  rw [behindMasks]
  cases nullDevice v with
  | none => rfl
  | some a => exact View.covered_nil v a

/-- The places of the paths so far, mounted on themselves and made read-only. -/
def lockedView (v w : View Chars φ σ) (done : List Chars) : View Chars φ σ :=
  w.sealed (pathPlaces v done) (pathPlaces v done) []

/-- A path is made read-only, or found absent, unless it is a bad one, or the root, for which the code
asks for a mount of the empty path, or leads through a file, or the guest refuses. -/
structure Lockable (g : FinishGuest) (v : View Chars φ σ) (path : Chars) : Prop where
  good : ¬ BadPath path
  below : path ≠ ['/']
  way : v.find [] (pathWays path) ≠ .error .notDir
  unrefused : g.refused (.mount path.tail path (MS_BIND ||| MS_REC)) = none
  remounted : (v.find [] (pathWays path)).isOk = true →
    g.refused (.mount path.tail path.tail
      (MS_BIND ||| MS_REC ||| MS_RDONLY ||| MS_REMOUNT)) = none

/-- A path that is not bad is a slash and a rest, which leads to the same place. -/
theorem good_cases (h : ¬ BadPath path) : ∃ rest, path = '/' :: rest := by
  cases path with
  | nil => exact absurd (.inl (by decide)) h
  | cons c rest =>
    by_cases hc : c = '/'
    · exact ⟨rest, by rw [hc]⟩
    · exact absurd (.inl fun h => hc (Option.some.inj h)) h

theorem mounted_remount_bind (source : Chars) {target : Chars} {flags : MsFlags}
    (hf : flags &&& MS_REMOUNT ≠ 0) (hb : flags &&& MS_BIND ≠ 0) (ht : s.find target = .ok p)
    (ho : s.view.sees p = some o) (hm : o.mounted = true) :
    s.mounted source target flags = .ok (s.view.lock p) := by
  rw [Finishing.mounted, ht]
  change (if flags &&& MS_REMOUNT ≠ 0 then _ else _) = _
  rw [if_pos hf, ho]
  dsimp only
  rw [if_neg (by rw [hm]; decide), if_pos hb]

omit [DecidableEq σ] in
theorem pathPlaces_congr (v : View Chars φ σ) {l m : List Chars}
    (h : ∀ path, path ∈ l ↔ path ∈ m) (x : List Chars) :
    x ∈ pathPlaces v l ↔ x ∈ pathPlaces v m := by
  simp only [pathPlaces, List.mem_filterMap, h]

theorem lockedView_nil (v w : View Chars φ σ) : lockedView v w [] = w := View.sealed_nil w

theorem lockedView_congr (v w : View Chars φ σ) {l m : List Chars}
    (h : ∀ path, path ∈ l ↔ path ∈ m) : lockedView v w l = lockedView v w m :=
  View.sealed_congr (pathPlaces_congr v h) (pathPlaces_congr v h) fun _ => Iff.rfl

theorem lockedView_dir (hw : ∀ x, (w.sees x).map Obj.dir = (v.sees x).map Obj.dir)
    (done : List Chars) (x : List Chars) :
    ((lockedView v w done).sees x).map Obj.dir = (v.sees x).map Obj.dir :=
  (View.sealed_dir x).trans (hw x)

/-- The mount and the remount of a place. -/
theorem lockedView_cons (h : v.find [] (pathWays path) = .ok p)
    (done : List Chars) :
    ((lockedView v w done).mountSelf p).lock p = lockedView v w (path :: done) := by
  rw [lockedView, lockedView, pathPlaces_cons_ok h, View.mountSelf_sealed, View.lock_sealed]
  intro m hm hne
  exact (List.mem_cons.1 hm).resolve_left hne

omit [DecidableEq σ] in
theorem find_rest (hs : s.cwd = []) (hu : ∀ x, (s.view.sees x).map Obj.dir = (v.sees x).map Obj.dir)
    (hrest : rest ≠ []) (h : v.find [] (pathWays ('/' :: rest)) = .ok p) :
    s.find rest = .ok p ∧ s.find ('/' :: rest) = .ok p := by
  rw [find_cases hs hrest hu, find_cases hs (List.cons_ne_nil _ _) hu, ← find_cons_slash, h]
  exact ⟨rfl, rfl⟩

/-- The mount of a path that leads somewhere on itself. -/
theorem mounted_self (done : List Chars) (hs : s.cwd = [])
    (hw : ∀ x, (w.sees x).map Obj.dir = (v.sees x).map Obj.dir) (hrest : rest ≠ [])
    (h : v.find [] (pathWays ('/' :: rest)) = .ok p) :
    Finishing.mounted { s with view := lockedView v w done } rest ('/' :: rest)
        (MS_BIND ||| MS_REC) = .ok ((lockedView v w done).mountSelf p) ∧
      ∃ o, (lockedView v w done).sees p = some o := by
  have hdir := lockedView_dir hw done
  obtain ⟨b, hb⟩ := View.find_sees h
  have hp := hdir p
  rw [hb] at hp
  obtain ⟨o, ho, -⟩ := Option.map_eq_some_iff.1 hp
  obtain ⟨hsource, htarget⟩ :=
    find_rest (s := { s with view := lockedView v w done }) hs hdir hrest h
  refine ⟨?_, o, ho⟩
  have hdeep : decide ((MS_BIND ||| MS_REC) &&& MS_REC ≠ 0) = true := by decide
  rw [mounted_bind (by decide) hrest htarget hsource, hdeep, View.bind_self ho]

theorem readonlyPath_ok {done : List Chars} (hs : s.cwd = [])
    (hw : ∀ x, (w.sees x).map Obj.dir = (v.sees x).map Obj.dir) (hp : Lockable g v path) :
    readonlyPath g path { s with view := lockedView v w done } =
      (.ok (), { s with view := lockedView v w (path :: done) }) := by
  obtain ⟨rest, rfl⟩ := good_cases hp.good
  have hdir := lockedView_dir hw done
  have hfind : Finishing.find { s with view := lockedView v w done } ('/' :: rest) = _ :=
    find_cases hs (List.cons_ne_nil _ _) hdir
  rw [readonlyPath, if_neg hp.good]
  cases htarget : v.find [] (pathWays ('/' :: rest)) with
  | error m =>
    rw [htarget] at hfind
    cases m with
    | notDir => exact absurd htarget hp.way
    | absent =>
      rw [mount_error hp.unrefused (mounted_target_error hfind)]
      dsimp only
      rw [missErrno, if_pos rfl, lockedView, lockedView, pathPlaces_cons_error htarget]
  | ok p =>
    have hrest : rest ≠ [] := fun h => hp.below (by rw [h])
    have hun : g.refused (.mount rest ('/' :: rest) (MS_BIND ||| MS_REC)) = none := hp.unrefused
    have hunremount : g.refused (.mount rest rest
        (MS_BIND ||| MS_REC ||| MS_RDONLY ||| MS_REMOUNT)) = none :=
      hp.remounted (by rw [htarget]; rfl)
    obtain ⟨hbind, o, ho⟩ := mounted_self (s := s) done hs hw hrest htarget
    have hself : ∀ x, (((lockedView v w done).mountSelf p).sees x).map Obj.dir =
        (v.sees x).map Obj.dir := by
      intro x
      rw [View.mountSelf, View.remap_dir, hdir]
    have hmounted : ((lockedView v w done).mountSelf p).sees p = some o.mount := by
      rw [View.mountSelf, View.remap_sees, ho]
      simp
    have hflags : (MS_BIND ||| MS_REC ||| MS_RDONLY ||| MS_REMOUNT) &&& MS_REMOUNT ≠ 0 ∧
        (MS_BIND ||| MS_REC ||| MS_RDONLY ||| MS_REMOUNT) &&& MS_BIND ≠ 0 := by decide
    have hremount := mounted_remount_bind rest
      (s := { s with view := (lockedView v w done).mountSelf p }) hflags.1 hflags.2
      (find_rest (s := { s with view := (lockedView v w done).mountSelf p }) hs hself hrest
        htarget).1 hmounted rfl
    rw [List.tail_cons, mount_ok hun hbind]
    dsimp only
    rw [Act.nix, mount_ok hunremount hremount, lockedView_cons htarget]

omit [DecidableEq σ] in
theorem find_slash (s : Finishing φ σ) : s.find ['/'] = .ok [] := by
  obtain ⟨o, ho, hd⟩ := s.view.root
  have hways : pathWays ['/'] = [none, none] := by decide
  rw [Finishing.find, if_neg (List.cons_ne_nil _ _), List.head?_cons, if_pos rfl, hways]
  simp only [View.find, ho, hd, if_true, Option.elim_none, Option.isSome_some]
  rfl

theorem readonlyPath_err {done : List Chars} (hg : g.Honest) (hs : s.cwd = [])
    (hw : ∀ x, (w.sees x).map Obj.dir = (v.sees x).map Obj.dir) (hp : ¬ Lockable g v path) :
    ∃ e t, readonlyPath g path { s with view := lockedView v w done } = (.err e, t) := by
  by_cases hgood : BadPath path
  · rw [readonlyPath, if_pos hgood]
    exact ⟨_, _, rfl⟩
  obtain ⟨rest, rfl⟩ := good_cases hgood
  have hfind : Finishing.find { s with view := lockedView v w done } ('/' :: rest) = _ :=
    find_cases hs (List.cons_ne_nil _ _) (lockedView_dir hw done)
  rw [readonlyPath, if_neg hgood, List.tail_cons]
  cases hr : g.refused (.mount rest ('/' :: rest) (MS_BIND ||| MS_REC)) with
  | some e =>
    have hne := (hg rest ('/' :: rest) (MS_BIND ||| MS_REC)).1
    rw [hr] at hne
    rw [mount_refused hr]
    dsimp only
    rw [if_neg fun h => hne (congrArg some h)]
    exact ⟨_, _, rfl⟩
  | none =>
    by_cases hrest : rest = []
    · subst hrest
      rw [mount_error hr (mounted_empty (by decide) (find_slash _))]
      exact ⟨.nix .EINVAL, _, rfl⟩
    have hbelow : '/' :: rest ≠ ['/'] := fun h => hrest (List.cons.inj h).2
    cases hway : v.find [] (pathWays ('/' :: rest)) with
    | error m =>
      cases m with
      | absent =>
        refine absurd ⟨hgood, hbelow, fun h => ?_, hr, fun h => ?_⟩ hp
        · cases hway.symm.trans h
        · rw [hway] at h
          cases h
      | notDir =>
        rw [hway] at hfind
        rw [mount_error hr (mounted_target_error hfind)]
        dsimp only
        rw [if_neg (by decide)]
        exact ⟨_, _, rfl⟩
    | ok p =>
      have hnotdir : v.find [] (pathWays ('/' :: rest)) ≠ .error .notDir := by
        rw [hway]
        intro h
        cases h
      -- only the remount is left to fail
      cases hre : g.refused (.mount rest rest
          (MS_BIND ||| MS_REC ||| MS_RDONLY ||| MS_REMOUNT)) with
      | none => exact absurd ⟨hgood, hbelow, hnotdir, hr, fun _ => hre⟩ hp
      | some e =>
        obtain ⟨hbind, -⟩ := mounted_self (s := s) done hs hw hrest hway
        rw [mount_ok hr hbind]
        dsimp only
        rw [Act.nix, mount_refused hre]
        exact ⟨_, _, rfl⟩

theorem devFlags_or (flags : MsFlags) :
    (flags ||| MS_REMOUNT) &&& MS_REMOUNT ≠ 0 ∧
      ((flags ||| MS_REMOUNT) &&& MS_BIND ≠ 0 ↔ flags &&& MS_BIND ≠ 0) := by
  have hd (mask : MsFlags) :
      (flags ||| MS_REMOUNT) &&& mask = (flags &&& mask) ||| (MS_REMOUNT &&& mask) := by
    apply UInt64.toBitVec_inj.1
    simp only [UInt64.toBitVec_and, UInt64.toBitVec_or, BitVec.and_or_distrib_right]
  rw [hd, hd]
  refine ⟨fun h => ?_, ?_⟩
  · have h0 : MS_REMOUNT &&& MS_REMOUNT = 0 := (UInt64.or_eq_zero_iff.1 h).2
    cases h0
  · have h0 : MS_REMOUNT &&& MS_BIND = 0 := rfl
    rw [h0, UInt64.or_zero]

theorem mounted_remount_super (source : Chars) {target : Chars} {flags : MsFlags}
    (hf : flags &&& MS_REMOUNT ≠ 0) (hb : ¬ flags &&& MS_BIND ≠ 0) (ht : s.find target = .ok p)
    (ho : s.view.sees p = some o) (hm : o.mounted = true) :
    s.mounted source target flags = .ok (s.view.lockSuper o.super) := by
  rw [Finishing.mounted, ht]
  change (if flags &&& MS_REMOUNT ≠ 0 then _ else _) = _
  rw [if_pos hf, ho]
  dsimp only
  rw [if_neg (by rw [hm]; decide), if_neg hb]

theorem mounted_remount_error (source : Chars) {target : Chars} {flags : MsFlags}
    (hf : flags &&& MS_REMOUNT ≠ 0) (ht : s.find target = .ok p)
    (ho : ∀ o, s.view.sees p = some o → o.mounted = false) :
    ∃ e, s.mounted source target flags = .error e := by
  rw [Finishing.mounted, ht]
  change ∃ e, (if flags &&& MS_REMOUNT ≠ 0 then _ else _) = _
  rw [if_pos hf]
  cases hsees : s.view.sees p with
  | none => exact ⟨_, rfl⟩
  | some o => exact ⟨_, if_pos (ho o hsees)⟩

/-- The view in the loop over the mounts, when the paths have been made read-only. -/
def devView (v w : View Chars φ σ) (locked : List (List Chars)) (done : List Mount) :
    View Chars φ σ :=
  w.sealed locked (devLocks v done ++ locked) (devSupers v w done)

theorem devView_congr (v w : View Chars φ σ) (locked : List (List Chars)) {l l' : List Mount}
    (h : ∀ m, m ∈ l ↔ m ∈ l') : devView v w locked l = devView v w locked l' := by
  refine View.sealed_congr (fun _ => Iff.rfl) (fun x => ?_) fun u => ?_
  · simp only [List.mem_append, devLocks, List.mem_flatMap, List.mem_filter, h]
  · simp only [devSupers, List.mem_flatMap, List.mem_filter, h]

/-- A pass has nothing to do, or finds a mount at `/dev`. -/
def DevLockable (g : FinishGuest) (v w : View Chars φ σ) (locked : List (List Chars))
    (m : Mount) : Prop :=
  DevRemount m → g.refused (.mount "/dev".toList "/dev".toList
      ((parseMount m).1 ||| MS_REMOUNT)) = none ∧
    ∃ p o, devPlace v = some p ∧ w.sees p = some o ∧ (o.mounted = true ∨ p ∈ locked)

theorem find_dev (locked : List (List Chars)) (done : List Mount) (hs : s.cwd = [])
    (hw : ∀ x, (w.sees x).map Obj.dir = (v.sees x).map Obj.dir) :
    Finishing.find { s with view := devView v w locked done } "/dev".toList =
      (v.find [] (pathWays "/dev".toList)).mapError missErrno := by
  refine find_cases hs (by decide) fun x => ?_
  exact (View.sealed_dir x).trans (hw x)

theorem devView_skip {locked : List (List Chars)} {m : Mount} (hm : ¬ DevRemount m)
    (done : List Mount) : devView v w locked (m :: done) = devView v w locked done := by
  rw [devView, devLocks, devSupers, List.filter_cons_of_neg (by simp [hm]),
    List.filter_cons_of_neg (by simp [hm])]
  rfl

theorem remountDev_ok {locked : List (List Chars)} {done : List Mount} {m : Mount}
    (hs : s.cwd = []) (hw : ∀ x, (w.sees x).map Obj.dir = (v.sees x).map Obj.dir)
    (hm : DevLockable g v w locked m) :
    remountDev g m { s with view := devView v w locked done } =
      (.ok (), { s with view := devView v w locked (m :: done) }) := by
  by_cases hdev : DevRemount m
  · obtain ⟨hun, p, o, hp, ho, hmounted⟩ := hm hdev
    have hfind := find_dev (s := s) locked done hs hw
    have hway : v.find [] (pathWays "/dev".toList) = .ok p := by
      rw [devPlace] at hp
      cases h : v.find [] (pathWays "/dev".toList) with
      | error m' =>
        rw [h] at hp
        cases hp
      | ok p' =>
        rw [h] at hp
        exact congrArg Except.ok (Option.some.inj hp)
    rw [hway] at hfind
    obtain ⟨o', ho', hsealed⟩ :=
      View.sealed_some locked (devLocks v done ++ locked) (devSupers v w done) ho
    obtain ⟨hre, hbind⟩ := devFlags_or (parseMount m).1
    rw [remountDev, if_pos hdev]
    by_cases hb : (parseMount m).1 &&& MS_BIND ≠ 0
    · have hmount := mounted_remount_bind "/dev".toList
        (s := { s with view := devView v w locked done }) hre (hbind.2 hb) hfind ho'
        (hsealed.mounted.2 hmounted)
      rw [Act.nix, mount_ok hun hmount]
      dsimp only
      rw [devView, View.lock_sealed fun x hx _ => List.mem_append_right _ hx, devView, devLocks,
        devLocks, devSupers, devSupers, List.filter_cons_of_pos (by simp [hdev, hb]),
        List.filter_cons_of_neg (by simp [hb]), List.flatMap_cons, hp]
      rfl
    · have hmount := mounted_remount_super "/dev".toList
        (s := { s with view := devView v w locked done }) hre (fun h => hb (hbind.1 h)) hfind
        ho' (hsealed.mounted.2 hmounted)
      rw [Act.nix, mount_ok hun hmount]
      dsimp only
      rw [hsealed.super, devView, View.lockSuper_sealed, devView, devLocks, devLocks, devSupers,
        devSupers, List.filter_cons_of_neg (by simp [hb]),
        List.filter_cons_of_pos (by simp [hdev, hb]),
        List.flatMap_cons, hp, Option.bind_some, ho]
      rfl
  · rw [remountDev, if_neg hdev, devView_skip hdev]
    rfl

theorem remountDev_err {locked : List (List Chars)} {done : List Mount} {m : Mount}
    (hs : s.cwd = []) (hw : ∀ x, (w.sees x).map Obj.dir = (v.sees x).map Obj.dir)
    (hm : ¬ DevLockable g v w locked m) :
    ∃ e t, remountDev g m { s with view := devView v w locked done } = (.err e, t) := by
  rw [DevLockable, Classical.not_imp] at hm
  obtain ⟨hdev, hno⟩ := hm
  have hfind := find_dev (s := s) locked done hs hw
  obtain ⟨hre, -⟩ := devFlags_or (parseMount m).1
  rw [remountDev, if_pos hdev, Act.nix]
  cases hun : g.refused (.mount "/dev".toList "/dev".toList ((parseMount m).1 ||| MS_REMOUNT)) with
  | some e =>
    rw [mount_refused hun]
    exact ⟨_, _, rfl⟩
  | none =>
    cases hway : v.find [] (pathWays "/dev".toList) with
    | error e =>
      rw [hway] at hfind
      rw [mount_error hun (mounted_target_error hfind)]
      exact ⟨_, _, rfl⟩
    | ok p =>
      rw [hway] at hfind
      obtain ⟨e, he⟩ := mounted_remount_error "/dev".toList hre hfind (by
        intro o' ho'
        obtain ⟨o, ho, hsealed⟩ := View.of_sealed_some ho'
        by_contra hmounted
        rw [Bool.not_eq_false] at hmounted
        refine hno ⟨hun, p, o, ?_, ho, hsealed.mounted.1 hmounted⟩
        rw [devPlace, hway]
        rfl)
      rw [mount_error hun he]
      exact ⟨_, _, rfl⟩

end

end

end KataAgent
