import KataAgent.CgroupSetters
import Mathlib.Order.Basic

namespace KataAgent
open Fallible
set_option autoImplicit true

/-- Where paths lead, and which directories cannot be removed. A directory is `≤` the ones it is in.
When one cannot be removed, some of those in it may be gone all the same. -/
structure RemovalGuest (N : Type) [Preorder N] where
  resolve : Chars → N
  refuses : N → Option Errno
  swept : N → N → Bool
  swept_lt : ∀ d a, swept d a = true → a < d
  strerror : Errno → String

/-- The directories that are there. -/
abbrev Directories (N : Type) := N → Bool

/-- The causes of failures are gone. -/
def RemovalGuest.calm [Preorder N] (g : RemovalGuest N) : RemovalGuest N :=
  { g with refuses := fun _ => none }

section
variable {N : Type} [Preorder N] [DecidableLE N]

def RemovalGuest.removeDirAll (g : RemovalGuest N) (d : N) : Act (Directories N) ErrorKind Unit :=
  fun s =>
    if s d = false then (.err (.io notFound), s)
    else
      match g.refuses d with
      | some e => (.err (.io (g.strerror e)), fun a => s a && !g.swept d a)
      | none => (.ok (), fun a => s a && !decide (a ≤ d))

def RemovalGuest.removeAll (g : RemovalGuest N) (ds : List N) :
    Act (Directories N) ErrorKind Unit := ds.forM g.removeDirAll

/-- `remove`. -/
def removeCgroup (g : RemovalGuest N) (dir : Chars) : Act (Directories N) ErrorKind Unit :=
  g.removeDirAll (g.resolve dir)

/-- The body of the loop of `Manager::destroy`. -/
def Manager.removeKey (g : RemovalGuest N) (m : Manager) (key : Chars) :
    Act (Directories N) ErrorKind Unit :=
  match m.paths.lookup key with
  | none => pure ()
  | some dir => removeCgroup g dir

/-- The end of `Manager::destroy`, where the paths are cleared after the loop. -/
def Manager.clear (m : Manager) : Outcome ErrorKind Unit × Directories N →
    Outcome ErrorKind Unit × Manager × Directories N
  | (.ok (), t) => (.ok (), { m with paths := ∅ }, t)
  | (.err e, t) => (.err e, m, t)
  | (.panic, t) => (.panic, m, t)

/-- `Manager::destroy`, for an order of the keys. -/
def Manager.destroy (g : RemovalGuest N) (m : Manager) (keys : List Chars) (s : Directories N) :
    Outcome ErrorKind Unit × Manager × Directories N := m.clear (keys.forM (m.removeKey g) s)

/-- The directories of the manager, in the order of the keys. -/
def Manager.nodes (g : RemovalGuest N) (m : Manager) (keys : List Chars) : List N :=
  keys.filterMap fun key => (m.paths.lookup key).map g.resolve

/-- The call succeeds, all directories of the manager are gone, and it has no paths left. -/
def DestroysAll (g : RemovalGuest N) (m : Manager) (keys : List Chars) (s : Directories N) : Prop :=
  ∃ t, m.destroy g keys s = (.ok (), { m with paths := ∅ }, t) ∧
    ∀ key dir, m.paths.lookup key = some dir → t (g.resolve dir) = false

/-- No directory is, or is in, one that comes before it. -/
def Apart (ds : List N) : Prop := ds.Pairwise fun a b => ¬ b ≤ a

variable {g : RemovalGuest N} {d : N} {ds : List N} {s t : Directories N} {e : Errno}
  {m : Manager} {keys : List Chars}

theorem removeDirAll_eq_ok : g.removeDirAll d s = (.ok (), t) ↔
    s d = true ∧ g.refuses d = none ∧ t = fun a => s a && !decide (a ≤ d) := by
  rw [RemovalGuest.removeDirAll]
  cases hs : s d with
  | false =>
    rw [if_pos rfl]
    constructor
    · intro h
      cases h
    · intro ⟨h, _⟩
      cases h
  | true =>
    rw [if_neg Bool.noConfusion]
    cases hr : g.refuses d with
    | some e =>
      constructor
      · intro h
        cases h
      · intro ⟨_, h, _⟩
        cases h
    | none =>
      constructor
      · intro h
        cases h
        exact ⟨rfl, rfl, rfl⟩
      · intro ⟨_, _, h⟩
        rw [h]

theorem removeDirAll_refused (hs : s d = true) (hr : g.refuses d = some e) :
    g.removeDirAll d s = (.err (.io (g.strerror e)), fun a => s a && !g.swept d a) := by
  rw [RemovalGuest.removeDirAll, if_neg (ne_false_of_eq_true hs), hr]

/-- What is gone stays gone. -/
theorem removeAll_preserves {a : N} (g : RemovalGuest N) (ds : List N) :
    Act.Preserves (fun s => s a = false) (g.removeAll ds) := by
  apply Act.Preserves.forM
  intro d _ s hs
  rw [RemovalGuest.removeDirAll]
  split
  · exact hs
  · split
    · exact Bool.and_eq_false_imp.2 fun h => absurd hs (ne_false_of_eq_true h)
    · exact Bool.and_eq_false_imp.2 fun h => absurd hs (ne_false_of_eq_true h)

theorem removeAll_cons : g.removeAll (d :: ds) = (do g.removeDirAll d; g.removeAll ds) := rfl

omit [DecidableLE N] in
theorem apart_cons : Apart (d :: ds) ↔ (∀ b ∈ ds, ¬ b ≤ d) ∧ Apart ds := List.pairwise_cons

/-- A removal of all directories succeeds exactly if all of them are there, none is refused, and
none is or is in one before it. -/
theorem removeAll_ok_iff : (∃ t, g.removeAll ds s = (.ok (), t)) ↔
    (∀ d ∈ ds, s d = true ∧ g.refuses d = none) ∧ Apart ds := by
  induction ds generalizing s with
  | nil => exact ⟨fun _ => ⟨fun _ h => absurd h List.not_mem_nil, .nil⟩, fun _ => ⟨s, rfl⟩⟩
  | cons d ds ih =>
    have hstep : (∃ t, g.removeAll (d :: ds) s = (.ok (), t)) ↔ (s d = true ∧ g.refuses d = none) ∧
        ∃ t, g.removeAll ds (fun a => s a && !decide (a ≤ d)) = (.ok (), t) := by
      constructor
      · intro ⟨t, h⟩
        obtain ⟨_, u, hd, hds⟩ := Act.bind_eq_ok.1 h
        obtain ⟨hs, hr, rfl⟩ := removeDirAll_eq_ok.1 hd
        exact ⟨⟨hs, hr⟩, t, hds⟩
      · intro ⟨⟨hs, hr⟩, t, hds⟩
        exact ⟨t, Act.bind_eq_ok.2 ⟨(), _, removeDirAll_eq_ok.2 ⟨hs, hr, rfl⟩, hds⟩⟩
    have hleft (b : N) : (s b && !decide (b ≤ d)) = true ↔ s b = true ∧ ¬ b ≤ d := by
      rw [Bool.and_eq_true, Bool.not_eq_true', decide_eq_false_iff_not]
    rw [hstep, ih, apart_cons, List.forall_mem_cons]
    simp only [hleft]
    constructor
    · intro ⟨hd, hds, hp⟩
      exact ⟨⟨hd, fun b hb => ⟨(hds b hb).1.1, (hds b hb).2⟩⟩, fun b hb => (hds b hb).1.2, hp⟩
    · intro ⟨⟨hd, hds⟩, hn, hp⟩
      exact ⟨hd, fun b hb => ⟨⟨(hds b hb).1, hn b hb⟩, (hds b hb).2⟩, hp⟩

theorem gone_of_removeAll (h : g.removeAll ds s = (.ok (), t)) : ∀ d ∈ ds, t d = false := by
  induction ds generalizing s with
  | nil => exact fun _ h => absurd h List.not_mem_nil
  | cons d ds ih =>
    rw [removeAll_cons] at h
    obtain ⟨_, u, hd, hds⟩ := Act.bind_eq_ok.1 h
    obtain ⟨-, -, rfl⟩ := removeDirAll_eq_ok.1 hd
    refine List.forall_mem_cons.2 ⟨?_, ih hds⟩
    have hkeep := removeAll_preserves (a := d) g ds (fun a => s a && !decide (a ≤ d)) (by simp)
    rw [hds] at hkeep
    exact hkeep

/-- The manager removes its directories one after the other. -/
theorem Manager.destroy_eq : m.destroy g keys s = m.clear (g.removeAll (m.nodes g keys) s) := by
  have hforM : keys.forM (m.removeKey g) = g.removeAll (m.nodes g keys) := by
    induction keys with
    | nil => rfl
    | cons key keys ih =>
      have hcons : (key :: keys).forM (m.removeKey g) =
          (m.removeKey g key >>= fun _ => g.removeAll (m.nodes g keys)) :=
        congrArg (m.removeKey g key >>= fun _ => ·) ih
      rw [hcons, Manager.removeKey, Manager.nodes, Manager.nodes, List.filterMap_cons]
      cases m.paths.lookup key with
      | none => rfl
      | some dir => rfl
  rw [Manager.destroy, hforM]

omit [DecidableLE N] in
theorem mem_nodes (hv : Visits m.paths keys) :
    d ∈ m.nodes g keys ↔ ∃ key dir, m.paths.lookup key = some dir ∧ g.resolve dir = d := by
  rw [Manager.nodes, List.mem_filterMap]
  constructor
  · intro ⟨key, _, h⟩
    obtain ⟨dir, hdir, hd⟩ := Option.map_eq_some_iff.1 h
    exact ⟨key, dir, hdir, hd⟩
  · intro ⟨key, dir, hdir, hd⟩
    refine ⟨key, (hv.mem key).2 (Finmap.lookup_isSome.1 (by rw [hdir]; rfl)), ?_⟩
    rw [hdir, Option.map_some, hd]

theorem destroysAll_iff (hv : Visits m.paths keys) : DestroysAll g m keys s ↔
    ∃ t, g.removeAll (m.nodes g keys) s = (.ok (), t) := by
  rw [DestroysAll, Manager.destroy_eq]
  constructor
  · intro ⟨t, h, _⟩
    rcases hrun : g.removeAll (m.nodes g keys) s with ⟨o, u⟩
    rw [hrun] at h
    cases o with
    | ok a => exact ⟨u, rfl⟩
    | err e => cases h
    | panic => cases h
  · intro ⟨t, h⟩
    refine ⟨t, congrArg m.clear h, fun key dir hdir => ?_⟩
    exact gone_of_removeAll h _ ((mem_nodes hv).2 ⟨key, dir, hdir, rfl⟩)

theorem destroy_eq_err {e : ErrorKind} {m' : Manager} :
    m.destroy g keys s = (.err e, m', t) ↔
      g.removeAll (m.nodes g keys) s = (.err e, t) ∧ m' = m := by
  rw [Manager.destroy_eq]
  constructor
  · intro h
    rcases hrun : g.removeAll (m.nodes g keys) s with ⟨o, u⟩
    rw [hrun] at h
    cases o with
    | ok a => cases h
    | err e =>
      cases h
      exact ⟨rfl, rfl⟩
    | panic => cases h
  · intro ⟨h, hm⟩
    rw [h, hm]
    rfl

theorem removeAll_ne_panic (ds : List N) (s : Directories N) : (g.removeAll ds s).1 ≠ .panic := by
  induction ds generalizing s with
  | nil => exact fun h => by cases h
  | cons d ds ih =>
    rw [removeAll_cons, Act.bind_apply]
    rcases hd : g.removeDirAll d s with ⟨o, u⟩
    cases o with
    | ok a => exact ih u
    | err e => exact fun h => by cases h
    | panic =>
      rw [RemovalGuest.removeDirAll] at hd
      split at hd
      · cases hd
      · split at hd
        · cases hd
        · cases hd

/-- After a failure at the first directory, all of them are still there. -/
theorem kept_of_first_refused {u : Directories N} {err : ErrorKind} (hs : ∀ b ∈ d :: ds, s b = true)
    (hp : Apart (d :: ds)) (hr : g.refuses d = some e)
    (h : g.removeAll (d :: ds) s = (.err err, u)) : ∀ b ∈ d :: ds, u b = true := by
  obtain ⟨hd, hds⟩ := List.forall_mem_cons.1 hs
  have hfirst := Act.bind_err (f := fun _ => g.removeAll ds) (removeDirAll_refused hd hr)
  have hu : u = fun a => s a && !g.swept d a :=
    congrArg Prod.snd (h.symm.trans hfirst)
  have hkeep {b : N} (hb : s b = true) (hlt : ¬ b < d) : u b = true := by
    rw [hu]
    dsimp only
    rw [hb, Bool.true_and, Bool.not_eq_true']
    by_contra hsw
    exact hlt (g.swept_lt d b (Bool.of_not_eq_false hsw))
  refine List.forall_mem_cons.2 ⟨hkeep hd (lt_irrefl d), fun b hb => hkeep (hds b hb) fun hlt => ?_⟩
  exact (apart_cons.1 hp).1 b hb hlt.le

/-- A first directory that is not refused is gone after a failure. -/
theorem first_gone {u : Directories N} {err : ErrorKind} (hs : s d = true)
    (hr : g.refuses d = none) (h : g.removeAll (d :: ds) s = (.err err, u)) : u d = false := by
  rw [removeAll_cons] at h
  rcases Act.bind_eq_err.1 h with hd | ⟨_, v, hd, hds⟩
  · rw [(removeDirAll_eq_ok (t := fun a => s a && !decide (a ≤ d))).2 ⟨hs, hr, rfl⟩] at hd
    cases hd
  · obtain ⟨-, -, rfl⟩ := removeDirAll_eq_ok.1 hd
    have hkeep := removeAll_preserves (a := d) g ds (fun a => s a && !decide (a ≤ d)) (by simp)
    rw [hds] at hkeep
    exact hkeep

/-- A second attempt finds all directories exactly if a failure is always one of the first. -/
theorem kept_iff (hs : ∀ b ∈ d :: ds, s b = true) (hp : Apart (d :: ds)) :
    (∀ e t, g.removeAll (d :: ds) s = (.err e, t) → ∀ b ∈ d :: ds, t b = true) ↔
      ((∃ b ∈ d :: ds, g.refuses b ≠ none) → g.refuses d ≠ none) := by
  constructor
  · intro hagain ⟨b, hb, hbr⟩ hr
    have hfail : ¬ ∃ t, g.removeAll (d :: ds) s = (.ok (), t) := by
      rw [removeAll_ok_iff]
      exact fun h => hbr (h.1 b hb).2
    rcases hrun : g.removeAll (d :: ds) s with ⟨o, t⟩
    cases o with
    | ok a => exact hfail ⟨t, hrun⟩
    | panic => exact removeAll_ne_panic (d :: ds) s (congrArg Prod.fst hrun)
    | err e =>
      have hgone := first_gone (hs d List.mem_cons_self) hr hrun
      rw [hagain e t hrun d List.mem_cons_self] at hgone
      cases hgone
  · intro hfirst e t ht
    by_cases hany : ∃ b ∈ d :: ds, g.refuses b ≠ none
    · obtain ⟨e', he'⟩ := Option.ne_none_iff_exists'.1 (hfirst hany)
      exact kept_of_first_refused hs hp he' ht
    · have hnone : ∀ b ∈ d :: ds, g.refuses b = none := by
        intro b hb
        by_contra hr
        exact hany ⟨b, hb, hr⟩
      obtain ⟨u, hu⟩ := removeAll_ok_iff.2 ⟨fun b hb => ⟨hs b hb, hnone b hb⟩, hp⟩
      cases hu.symm.trans ht

end

/-- The manager is destroyed, at once or at a second attempt, exactly if no directory is or is in
one that comes before it, and only a failure of the first directory can make the first attempt
fail. -/
theorem destroy_iff {N : Type} [Preorder N] [DecidableLE N] (g : RemovalGuest N) (m : Manager)
    (keys : List Chars) (hv : Visits m.paths keys) (s : Directories N)
    (hs : ∀ key dir, m.paths.lookup key = some dir → s (g.resolve dir) = true) :
    (DestroysAll g.calm m keys s ∧ ∀ e m' t, m.destroy g keys s = (.err e, m', t) →
      DestroysAll g.calm m' keys t) ↔
    Apart (m.nodes g keys) ∧ ((∃ d ∈ m.nodes g keys, g.refuses d ≠ none) →
      ∃ d ∈ (m.nodes g keys).head?, g.refuses d ≠ none) := by
  have hthere : ∀ d ∈ m.nodes g keys, s d = true := by
    intro d hd
    obtain ⟨key, dir, hdir, rfl⟩ := (mem_nodes hv).1 hd
    exact hs key dir hdir
  have hcalm (u : Directories N) : DestroysAll g.calm m keys u ↔
      (∀ d ∈ m.nodes g keys, u d = true) ∧ Apart (m.nodes g keys) := by
    rw [destroysAll_iff hv, removeAll_ok_iff]
    exact and_congr_left' (forall₂_congr fun d _ => and_iff_left rfl)
  have hretry : (∀ e m' t, m.destroy g keys s = (.err e, m', t) → DestroysAll g.calm m' keys t) ↔
      ∀ e t, g.removeAll (m.nodes g keys) s = (.err e, t) → DestroysAll g.calm m keys t := by
    constructor
    · intro h e t ht
      exact h e m t (destroy_eq_err.2 ⟨ht, rfl⟩)
    · intro h e m' t ht
      obtain ⟨ht, rfl⟩ := destroy_eq_err.1 ht
      exact h e t ht
  rw [hretry, hcalm, and_iff_right hthere]
  apply and_congr_right
  intro hapart
  simp only [hcalm, and_iff_left hapart]
  cases hds : m.nodes g keys with
  | nil =>
    constructor
    · intro _ ⟨d, hd, _⟩
      cases hd
    · intro _ e t ht
      cases ht
  | cons d ds =>
    rw [hds] at hthere hapart
    have hhead : (∃ b ∈ (d :: ds).head?, g.refuses b ≠ none) ↔ g.refuses d ≠ none := by
      constructor
      · intro ⟨b, hb, hr⟩
        cases hb
        exact hr
      · intro hr
        exact ⟨d, rfl, hr⟩
    rw [hhead]
    exact kept_iff hthere hapart

/-- A directory by its path. -/
structure CgroupDir where
  path : Chars
  deriving DecidableEq

instance : Preorder CgroupDir where
  le a b := b.path <+: a.path ∧ (a.path = b.path ∨ (a.path.drop b.path.length).head? = some '/')
  le_refl a := ⟨List.prefix_rfl, .inl rfl⟩
  le_trans a b c := by
    intro ⟨hab, hab'⟩ ⟨hbc, hbc'⟩
    refine ⟨hbc.trans hab, ?_⟩
    obtain ⟨u, hu⟩ := hab
    obtain ⟨v, hv⟩ := hbc
    rcases hbc' with h | h
    · rw [← h]
      exact hab'
    · apply Or.inr
      rw [← hv, List.drop_left] at h
      rw [← hu, ← hv, List.append_assoc, List.drop_left, List.head?_append, h]
      rfl

instance : DecidableLE CgroupDir := fun a b =>
  inferInstanceAs (Decidable (b.path <+: a.path ∧
    (a.path = b.path ∨ (a.path.drop b.path.length).head? = some '/')))

/-- Every directory can be removed. -/
def willingGuest : RemovalGuest CgroupDir where
  resolve := CgroupDir.mk
  refuses _ := none
  swept _ _ := false
  swept_lt _ _ h := by cases h
  strerror _ := ""

/-- A manager of two controllers. -/
def cpuManager (cpu cpuacct : Chars) : Manager where
  paths := ((∅ : Table Chars Chars).insert "cpu".toList cpu).insert "cpuacct".toList cpuacct
  mounts := ∅
  rels := ∅
  cpath := "/kata".toList

theorem cpuManager_visits (cpu cpuacct : Chars) :
    Visits (cpuManager cpu cpuacct).paths ["cpu".toList, "cpuacct".toList] where
  nodup := by decide
  mem k := by
    rw [List.mem_pair, cpuManager, Finmap.mem_insert, Finmap.mem_insert]
    constructor
    · intro h
      exact h.symm.imp id .inl
    · intro h
      exact h.symm.imp (fun h => h.resolve_right Finmap.notMem_empty) id

theorem cpuManager_nodes (cpu cpuacct : Chars) :
    (cpuManager cpu cpuacct).nodes willingGuest ["cpu".toList, "cpuacct".toList] =
      [⟨cpu⟩, ⟨cpuacct⟩] := by
  have hcpu : (cpuManager cpu cpuacct).paths.lookup "cpu".toList = some cpu := by
    rw [cpuManager, Finmap.lookup_insert_of_ne _ (by decide), Finmap.lookup_insert]
  have hcpuacct : (cpuManager cpu cpuacct).paths.lookup "cpuacct".toList = some cpuacct := by
    rw [cpuManager, Finmap.lookup_insert]
  rw [Manager.nodes, List.filterMap_cons, hcpu, List.filterMap_cons, hcpuacct]
  rfl

theorem destroy_separate :
    DestroysAll willingGuest.calm (cpuManager "/c/cpu/kata".toList "/c/cpuacct/kata".toList)
      ["cpu".toList, "cpuacct".toList] (fun _ => true) ∧
    ∀ e m' t, (cpuManager "/c/cpu/kata".toList "/c/cpuacct/kata".toList).destroy willingGuest
        ["cpu".toList, "cpuacct".toList] (fun _ => true) = (.err e, m', t) →
      DestroysAll willingGuest.calm m' ["cpu".toList, "cpuacct".toList] t := by
  refine (destroy_iff willingGuest (cpuManager "/c/cpu/kata".toList "/c/cpuacct/kata".toList)
    ["cpu".toList, "cpuacct".toList] (cpuManager_visits _ _) (fun _ => true) fun _ _ _ => rfl).2 ?_
  rw [cpuManager_nodes]
  exact ⟨List.pairwise_pair.2 (by decide), fun ⟨_, _, hr⟩ => absurd rfl hr⟩

/-- Two controllers are mounted together and share their directory. -/
theorem destroy_shared : ¬ ∀ (g : RemovalGuest CgroupDir) (m : Manager) (keys : List Chars),
    Visits m.paths keys → ∀ s : Directories CgroupDir,
    (∀ key dir, m.paths.lookup key = some dir → s (g.resolve dir) = true) →
    DestroysAll g.calm m keys s ∧ ∀ e m' t, m.destroy g keys s = (.err e, m', t) →
      DestroysAll g.calm m' keys t := by
  intro h
  have hv := cpuManager_visits "/c/cpu,cpuacct/kata".toList "/c/cpu,cpuacct/kata".toList
  obtain ⟨hall, -⟩ := h willingGuest _ _ hv (fun _ => true) fun _ _ _ => rfl
  obtain ⟨-, hapart⟩ := removeAll_ok_iff.1 ((destroysAll_iff hv).1 hall)
  have hnodes := cpuManager_nodes "/c/cpu,cpuacct/kata".toList "/c/cpu,cpuacct/kata".toList
  rw [show willingGuest.calm = willingGuest from rfl, hnodes] at hapart
  exact (apart_cons.1 hapart).1 _ List.mem_cons_self (le_refl _)

end KataAgent
