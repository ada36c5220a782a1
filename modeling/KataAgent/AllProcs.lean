import KataAgent.CgroupPaths
import KataAgent.DecimalText

namespace KataAgent
open Fallible
set_option autoImplicit true

def CGROUP_PROCS : Chars := "cgroup.procs".toList

/-- What `fs::read_dir` lists, in its order, each directory with what is listed in there. A name
that is not UTF-8 is `none`. -/
inductive Listing where
  | nil
  | dir (name : Option Chars) (sub rest : Listing)
  | file (name : Option Chars) (text : String) (rest : Listing)
  deriving DecidableEq

/-- The text of the error of `parse::<i32>`. A number that is too large is one before the digit
after it is looked at. -/
def intError (cs : Chars) : String :=
  let ds := if cs.head? = some '-' ∨ cs.head? = some '+' then cs.tail else cs
  let n := decimalValue (ds.takeWhile Char.isDigit)
  if cs = [] then "cannot parse integer from empty string"
  else if cs.head? = some '-' ∧ 2 ^ 31 < n then "number too small to fit in target type"
  else if cs.head? ≠ some '-' ∧ 2 ^ 31 ≤ n then "number too large to fit in target type"
  else "invalid digit found in string"

def parsePid (cs : Chars) : Outcome ErrorKind Int :=
  .ofOption (.parse (intError cs)) (parseI32 cs)

/-- `get_procs`, for what the file holds. -/
def getProcs (text : String) : Outcome ErrorKind (List Int) :=
  (lines text).mapM fun l => parsePid (trim l)

def getAllProcs : Listing → Outcome ErrorKind (List Int)
  | .nil => .ok []
  | .dir name sub rest => do
    let _ ← Outcome.ofUnwrap name
    let procs ← getAllProcs sub
    let m ← getAllProcs rest
    .ok (procs ++ m)
  | .file name text rest =>
    -- the first file of this name ends the loop
    if name = some CGROUP_PROCS then getProcs text else getAllProcs rest

def Manager.getAllPids (readDir : Chars → Outcome ErrorKind Listing) (m : Manager) :
    Outcome ErrorKind (List Int) :=
  match m.paths.lookup "devices".toList with
  | some dir => readDir dir >>= getAllProcs
  | none => .err (.errorCode "no devices cgroup")

/-- What the kernel writes to `cgroup.procs`. -/
def procsText (pids : List Nat) : String := fileText (pids.map decimalText)

/-- The pids in a file, one on each line. -/
def pidsOf (text : String) : List Int := (lines text).map fun l => (decimalValue l : Int)

/-- The `cgroup.procs` files of a directory and of all directories below it. -/
def Listing.procsFiles : Listing → List String
  | .nil => []
  | .dir _ sub rest => sub.procsFiles ++ rest.procsFiles
  | .file name text rest =>
    if name = some CGROUP_PROCS then text :: rest.procsFiles else rest.procsFiles

def Listing.pids (t : Listing) : List Int := t.procsFiles.flatMap pidsOf

/-- The `cgroup.procs` files are the kernel's. -/
def Listing.Kernel (t : Listing) : Prop :=
  ∀ text ∈ t.procsFiles, ∃ pids : List Nat, (∀ pid ∈ pids, pid < 2 ^ 31) ∧ text = procsText pids

/-- No directory is listed behind the `cgroup.procs` of its parent, unless no process is in it and
below it; the names of the others are UTF-8. -/
def Listing.InTime : Listing → Prop
  | .nil => True
  | .dir name sub rest => name.isSome ∧ sub.InTime ∧ rest.InTime
  | .file name _ rest => if name = some CGROUP_PROCS then rest.pids = [] else rest.InTime

section
variable {t sub rest : Listing} {name : Option Chars} {text : String} {m : List Int}

theorem lines_procsText (pids : List Nat) :
    lines (procsText pids) = pids.map decimalText := by
  have hline : ∀ l ∈ pids.map decimalText, '\n' ∉ l := by
    intro l hl
    obtain ⟨n, -, rfl⟩ := List.mem_map.1 hl
    exact notMem_decimalText (by decide)
  rw [procsText, lines_fileText hline, List.map_map]
  apply List.map_congr_left
  intro n _
  exact stripReturn_of_notMem (notMem_decimalText (by decide))

theorem pidsOf_procsText (pids : List Nat) : pidsOf (procsText pids) = pids.map Int.ofNat := by
  rw [pidsOf, lines_procsText, List.map_map]
  apply List.map_congr_left
  intro n _
  exact congrArg Int.ofNat (decimalValue_decimalText n)

theorem getProcs_procsText {pids : List Nat} (h : ∀ pid ∈ pids, pid < 2 ^ 31) :
    getProcs (procsText pids) = .ok (pidsOf (procsText pids)) := by
  rw [getProcs, lines_procsText, pidsOf_procsText, Outcome.mapM_eq_ok, List.forall₂_map_left_iff,
    List.forall₂_map_right_iff, List.forall₂_same]
  intro n hn
  rw [trim_decimalText, parsePid, parseI32_decimalText (h n hn)]
  rfl

theorem Listing.Kernel.getProcs_eq (h : t.Kernel) (ht : text ∈ t.procsFiles) :
    getProcs text = .ok (pidsOf text) := by
  obtain ⟨pids, hpids, rfl⟩ := h text ht
  exact getProcs_procsText hpids

theorem Listing.Kernel.own (h : (Listing.file (some CGROUP_PROCS) text rest).Kernel) :
    getProcs text = .ok (pidsOf text) := by
  apply h.getProcs_eq
  rw [Listing.procsFiles, if_pos rfl]
  exact List.mem_cons_self

theorem Listing.pids_nil : Listing.nil.pids = [] := List.flatMap_nil

theorem Listing.pids_dir : (Listing.dir name sub rest).pids = sub.pids ++ rest.pids :=
  List.flatMap_append

theorem Listing.pids_procs :
    (Listing.file (some CGROUP_PROCS) text rest).pids = pidsOf text ++ rest.pids := by
  rw [Listing.pids, Listing.procsFiles, if_pos rfl]
  exact List.flatMap_cons

theorem Listing.pids_other (h : name ≠ some CGROUP_PROCS) :
    (Listing.file name text rest).pids = rest.pids := by
  rw [Listing.pids, Listing.procsFiles, if_neg h, Listing.pids]

theorem Listing.Kernel.below (h : (Listing.dir name sub rest).Kernel) : sub.Kernel :=
  fun text ht => h text (List.mem_append_left _ ht)

theorem Listing.Kernel.after (h : (Listing.dir name sub rest).Kernel) : rest.Kernel :=
  fun text ht => h text (List.mem_append_right _ ht)

theorem Listing.Kernel.other (h : (Listing.file name text rest).Kernel)
    (hn : name ≠ some CGROUP_PROCS) : rest.Kernel := by
  rw [Listing.Kernel, Listing.procsFiles, if_neg hn] at h
  exact h

/-- What the function returns is read from `cgroup.procs` files, each of them once, in the order in
which they are listed. -/
theorem getAllProcs_sublist (hk : t.Kernel) (h : getAllProcs t = .ok m) : m.Sublist t.pids := by
  induction t generalizing m with
  | nil =>
    cases h
    exact List.nil_sublist _
  | dir name sub rest ihs ihr =>
    obtain ⟨n, -, h⟩ := Outcome.bind_eq_ok.1 h
    obtain ⟨procs, hs, h⟩ := Outcome.bind_eq_ok.1 h
    obtain ⟨m', hr, h⟩ := Outcome.bind_eq_ok.1 h
    cases h
    rw [Listing.pids_dir]
    exact (ihs hk.below hs).append (ihr hk.after hr)
  | file name text rest ih =>
    rw [getAllProcs] at h
    by_cases hn : name = some CGROUP_PROCS
    · rw [if_pos hn] at h
      cases hn
      rw [hk.own] at h
      cases h
      rw [Listing.pids_procs]
      exact List.sublist_append_left _ _
    · rw [if_neg hn] at h
      rw [Listing.pids_other hn]
      exact ih (hk.other hn) h

theorem getAllProcs_of_inTime (hk : t.Kernel) (h : t.InTime) : getAllProcs t = .ok t.pids := by
  induction t with
  | nil => rfl
  | dir name sub rest ihs ihr =>
    obtain ⟨hname, hs, hr⟩ := h
    obtain ⟨n, rfl⟩ := Option.isSome_iff_exists.1 hname
    rw [getAllProcs, ihs hk.below hs, ihr hk.after hr, Listing.pids_dir]
    rfl
  | file name text rest ih =>
    rw [Listing.InTime] at h
    rw [getAllProcs]
    by_cases hn : name = some CGROUP_PROCS
    · rw [if_pos hn] at h ⊢
      cases hn
      rw [hk.own, Listing.pids_procs, h, List.append_nil]
    · rw [if_neg hn] at h ⊢
      rw [ih (hk.other hn) h, Listing.pids_other hn]

theorem inTime_of_getAllProcs (hk : t.Kernel) (h : getAllProcs t = .ok t.pids) : t.InTime := by
  induction t with
  | nil => trivial
  | dir name sub rest ihs ihr =>
    obtain ⟨n, hname, h⟩ := Outcome.bind_eq_ok.1 h
    obtain ⟨procs, hs, h⟩ := Outcome.bind_eq_ok.1 h
    obtain ⟨m, hr, h⟩ := Outcome.bind_eq_ok.1 h
    have heq : procs ++ m = sub.pids ++ rest.pids :=
      (Outcome.ok.inj h).trans Listing.pids_dir
    -- a part that is too short cannot be made up for by the other
    have hlen := congrArg List.length heq
    rw [List.length_append, List.length_append] at hlen
    have hsub := getAllProcs_sublist hk.below hs
    have hrest := getAllProcs_sublist hk.after hr
    have hsle := hsub.length_le
    have hrle := hrest.length_le
    rw [hsub.eq_of_length_le (by omega)] at hs
    rw [hrest.eq_of_length_le (by omega)] at hr
    refine ⟨?_, ihs hk.below hs, ihr hk.after hr⟩
    cases name with
    | none => cases hname
    | some n => rfl
  | file name text rest ih =>
    rw [getAllProcs] at h
    rw [Listing.InTime]
    by_cases hn : name = some CGROUP_PROCS
    · rw [if_pos hn] at h ⊢
      cases hn
      rw [hk.own, Listing.pids_procs] at h
      exact List.self_eq_append_right.1 (Outcome.ok.inj h)
    · rw [if_neg hn] at h ⊢
      rw [Listing.pids_other hn] at h
      exact ih (hk.other hn) h

/-- All pids of the container, where the directory of the devices controller is in time. -/
theorem Manager.getAllPids_of_inTime {readDir : Chars → Outcome ErrorKind Listing} {m : Manager}
    {dir : Chars} (hm : m.paths.lookup "devices".toList = some dir) (hd : readDir dir = .ok t)
    (hk : t.Kernel) (h : t.InTime) : m.getAllPids readDir = .ok t.pids := by
  rw [Manager.getAllPids, hm]
  dsimp only
  rw [hd, Outcome.ok_bind, getAllProcs_of_inTime hk h]

end

/-- The pids of all the files come back exactly if no process is in a directory that is listed
behind the `cgroup.procs` of its parent. -/
theorem getAllProcs_iff (t : Listing) (hk : t.Kernel) :
    (∃ m, getAllProcs t = .ok m ∧ m.Perm t.pids) ↔ t.InTime := by
  constructor
  · rintro ⟨m, h, hm⟩
    rw [(getAllProcs_sublist hk h).eq_of_length hm.length_eq] at h
    exact inTime_of_getAllProcs hk h
  · intro h
    exact ⟨t.pids, getAllProcs_of_inTime hk h, .refl _⟩

/-- A cgroup with one below it, which is listed first or last. -/
def nestedCgroup (first : Bool) : Listing :=
  let nested := .file (some CGROUP_PROCS) (procsText [7]) .nil
  if first then .dir (some "a".toList) nested (.file (some CGROUP_PROCS) (procsText [5]) .nil)
  else .file (some CGROUP_PROCS) (procsText [5]) (.dir (some "a".toList) nested .nil)

theorem nestedCgroup_kernel (first : Bool) : (nestedCgroup first).Kernel := by
  have hfiles : ∀ text ∈ (nestedCgroup first).procsFiles,
      text = procsText [5] ∨ text = procsText [7] := by
    cases first with
    | true => exact fun text h => (List.mem_pair.1 h).symm
    | false => exact fun text h => List.mem_pair.1 h
  intro text ht
  rcases hfiles text ht with rfl | rfl
  · exact ⟨[5], by decide, rfl⟩
  · exact ⟨[7], by decide, rfl⟩

theorem inTime_procs (text : String) : (Listing.file (some CGROUP_PROCS) text .nil).InTime := by
  rw [Listing.InTime, if_pos rfl]
  exact Listing.pids_nil

theorem getAllProcs_nestedFirst : ∃ m, getAllProcs (nestedCgroup true) = .ok m ∧
    m.Perm (nestedCgroup true).pids :=
  (getAllProcs_iff (nestedCgroup true) (nestedCgroup_kernel true)).2
    ⟨rfl, inTime_procs _, inTime_procs _⟩

/-- The file of the directory itself is listed first, and the process below it is missed. -/
theorem getAllProcs_nestedLast : ¬ ∀ t : Listing, t.Kernel →
    ∃ m, getAllProcs t = .ok m ∧ m.Perm t.pids := by
  intro h
  obtain ⟨m, hm, hperm⟩ := h (nestedCgroup false) (nestedCgroup_kernel false)
  have hfirst : getAllProcs (nestedCgroup false) = .ok [5] :=
    @getProcs_procsText [5] (by decide)
  cases hfirst.symm.trans hm
  have hpids : (nestedCgroup false).pids = pidsOf (procsText [5]) ++ pidsOf (procsText [7]) := by
    rw [nestedCgroup, if_neg Bool.false_ne_true, Listing.pids_procs, Listing.pids_dir,
      Listing.pids_procs, Listing.pids_nil, List.append_nil, List.append_nil]
  rw [hpids, pidsOf_procsText, pidsOf_procsText] at hperm
  exact absurd hperm.length_eq (by decide)

end KataAgent
