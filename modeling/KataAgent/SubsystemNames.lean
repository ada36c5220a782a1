import KataAgent.LimitFrame

namespace KataAgent
open Fallible
set_option autoImplicit true

/-- The error is not one of `nix`. -/
def Foreign (e : ErrorKind) : Prop := ∀ errno, e ≠ .nix errno

/-- `get_subsystem` has a subsystem of this name. -/
def Accepted (key : Chars) : Prop := key ∈ subsystems.map Prod.fst

instance (key : Chars) : Decidable (Accepted key) :=
  inferInstanceAs (Decidable (key ∈ subsystems.map Prod.fst))

/-- A name of both files: of a process line without a colon in its path, and of a cgroup mount whose
source is not a hyphen. -/
def ListedTwice (es : List CgroupLine) (ls : List MountLine) (key : Chars) : Prop :=
  (∃ e ∈ es, ':' ∉ e.path ∧ key ∈ e.controllers) ∧
    ∃ l ∈ ls, l.source ≠ ['-'] ∧ l.ofCgroup = true ∧ key ∈ l.names

section
variable {g : ControlGuest} {dir file v : Chars} {r : CgroupResources} {update : Bool}

theorem write_errs {forgiven : Errno → Bool} :
    Act.Errs Foreign (g.write dir file forgiven v) := by
  intro s e h
  rw [ControlGuest.write] at h
  split at h
  · dsimp only at h
    split at h
    · cases h
    · cases h
      exact fun _ h => by cases h
  · cases h

theorem runWrites_errs {cs : List WriteCommand} : Act.Errs Foreign (runWrites g dir cs) :=
  .forM fun _ _ => write_errs

theorem setIf_errs {c : Prop} [Decidable c] {x : Setting Unit} (hx : Act.Errs Foreign x) :
    Act.Errs Foreign (setIf c x) := by
  rw [setIf]
  split
  · exact hx
  · exact .pure ()

theorem copyParentWithin_errs (depth : Nat) :
    Act.Errs Foreign (copyParentWithin g file depth dir) := by
  induction depth generalizing dir with
  | zero => exact fun _ _ h => by cases h
  | succ depth ih =>
    have hfail (text : String) : Act.Errs Foreign (Act.fail (.io text) : Setting Unit) := by
      intro s e h
      cases h
      exact fun _ h => by cases h
    rw [copyParentWithin]
    cases parentOf dir with
    | none =>
      intro s e h
      cases h
      exact fun _ h => by cases h
    | some parent =>
      have hread : Act.Errs Foreign (Act.read (readFile g parent file) :
          Setting (Except Errno Chars)) := fun _ _ h => by cases h
      apply hread.bind
      intro found
      cases found with
      | ok v =>
        dsimp only
        split
        · exact write_errs
        · exact ih.bind fun _ => ih
      | error e =>
        dsimp only
        split
        · exact ih.bind fun _ => ih
        · exact hfail _

theorem CpuSet.set_errs : Act.Errs Foreign (CpuSet.set g dir r update) := by
  rw [CpuSet.set]
  apply Act.Errs.bind
  · exact setIf_errs ((copyParentWithin_errs _).bind fun _ => copyParentWithin_errs _)
  · intro _
    rw [setCpus_eq]
    exact runWrites_errs

theorem Memory.set_errs : Act.Errs Foreign (Memory.set g dir r update) := by
  rw [Memory.set]
  cases r.memory with
  | none => exact .pure ()
  | some memory =>
    apply Act.Errs.bind
    · exact setIf_errs (write_errs.bind fun _ => write_errs)
    intro _
    apply Act.Errs.bind (setIf_errs write_errs)
    intro _
    apply Act.Errs.bind (setIf_errs write_errs)
    intro _
    apply Act.Errs.bind (setIf_errs write_errs)
    intro _
    apply Act.Errs.bind (setIf_errs write_errs)
    intro _
    apply Act.Errs.bind (setIf_errs write_errs)
    intro _
    apply Act.Errs.bind (setIf_errs write_errs)
    intro _
    exact setIf_errs write_errs

/-- The setters fail with errors of reads and writes only. -/
theorem Subsystem.set_errs (sub : Subsystem) : Act.Errs Foreign (sub.set g dir r update) := by
  have hrest (h : sub.set g dir r update = sub.set g dir r true) :
      Act.Errs Foreign (sub.set g dir r update) := by
    rw [h, Subsystem.set_update]
    exact runWrites_errs
  cases sub with
  | CpuSet => exact CpuSet.set_errs
  | Memory => exact Memory.set_errs
  | _ => exact hrest rfl

theorem accepted_iff {key : Chars} : Accepted key ↔ ∃ sub, getSubsystem key = .ok sub := by
  constructor
  · intro h
    have hlookup : (subsystems.lookup key).isSome = true := by
      rw [List.lookup_isSome_iff]
      obtain ⟨e, he, rfl⟩ := List.mem_map.1 h
      exact ⟨e, he, beq_self_eq_true _⟩
    obtain ⟨sub, hsub⟩ := Option.isSome_iff_exists.1 hlookup
    exact ⟨sub, Outcome.ofOption_eq_ok.2 hsub⟩
  · intro ⟨sub, h⟩
    exact List.mem_map_of_mem (mem_of_getSubsystem h)

theorem Manager.set_errs {m : Manager} (hm : ∀ key ∈ m.paths, Accepted key) (keys : List Chars) :
    Act.Errs Foreign (m.set g r update keys) := by
  apply Act.Errs.forM
  intro key _
  cases hdir : m.paths.lookup key with
  | none =>
    rw [Manager.setKey_of_none hdir]
    exact .pure ()
  | some dir =>
    have hkey : key ∈ m.paths := Finmap.lookup_isSome.1 (by rw [hdir]; rfl)
    obtain ⟨sub, hsub⟩ := accepted_iff.1 (hm key hkey)
    rw [Manager.setKey_of_lookup hdir, hsub]
    have hmake : Act.Errs Foreign (Act.modify (g.makes dir) : Setting Unit) :=
      fun _ _ h => by cases h
    have hlift : Act.Errs Foreign (Act.lift (.ok sub) : Setting Subsystem) :=
      fun _ _ h => by cases h
    exact hmake.bind fun _ => hlift.bind fun sub => sub.set_errs

theorem mem_iff_lookup {t : Table Chars Chars} {key : Chars} :
    key ∈ t ↔ t.lookup key ≠ none := by
  rw [← not_not (a := key ∈ t), Table.notMem_iff]

theorem lastOf_readMounts {ls : List MountLine} {key : Chars} :
    lastOf (readMounts ls) key ≠ none ↔
      ∃ l ∈ ls, l.source ≠ ['-'] ∧ l.ofCgroup = true ∧ key ∈ l.names := by
  rw [ne_eq, lastOf_eq_none]
  constructor
  · intro hne
    by_contra hno
    apply hne
    intro p hp hk
    obtain ⟨l, hl, rfl⟩ := List.mem_map.1 hp
    obtain ⟨hl, hof⟩ := List.mem_filter.1 hl
    obtain ⟨hl, hw⟩ := List.mem_filter.1 hl
    exact hno ⟨l, hl, of_decide_eq_true hw, hof, hk⟩
  · intro ⟨l, hl, hs, hof, hk⟩ hno
    have hw : l ∈ ls.filter MountLine.whole := List.mem_filter.2 ⟨hl, decide_eq_true hs⟩
    exact hno _ (List.mem_map_of_mem (List.mem_filter.2 ⟨hw, hof⟩)) hk

theorem lastOf_readPaths {es : List CgroupLine} {key : Chars} (hk : key ≠ []) :
    lastOf (readPaths es) key ≠ none ↔ ∃ e ∈ es, ':' ∉ e.path ∧ key ∈ e.controllers := by
  rw [ne_eq, lastOf_eq_none]
  constructor
  · intro hne
    by_contra hno
    apply hne
    intro p hp hkey
    obtain ⟨e, he, rfl⟩ := List.mem_map.1 hp
    obtain ⟨he, hc⟩ := List.mem_filter.1 he
    exact hno ⟨e, he, mt e.colon_mem_iff.2 (of_decide_eq_true hc),
      (CgroupLine.mem_entered hk).1 hkey⟩
  · intro ⟨e, he, hc, hkey⟩ hno
    exact hno _ (List.mem_map_of_mem (List.mem_filter.2 ⟨he,
      decide_eq_true (mt e.colon_mem_iff.1 hc)⟩)) ((CgroupLine.mem_entered hk).2 hkey)

theorem joined_ne_none {rels mounts : Table Chars Chars} {cpath key : Chars} :
    joined rels mounts cpath key ≠ none ↔ key ∈ rels ∧ key ∈ mounts := by
  rw [mem_iff_lookup, mem_iff_lookup, joined]
  cases rels.lookup key with
  | none => exact ⟨fun h => absurd rfl h, fun h => absurd rfl h.1⟩
  | some value =>
    cases mounts.lookup key with
    | none => exact ⟨fun h => absurd rfl h, fun h => absurd rfl h.2⟩
    | some mnt => exact ⟨fun _ => ⟨Option.some_ne_none _, Option.some_ne_none _⟩,
        fun _ => Option.some_ne_none _⟩

/-- The keys of a manager are the names that are in both files. -/
theorem Manager.mem_paths_iff {o : HashOrder} {es : List CgroupLine} {ls : List MountLine}
    {cpath key : Chars} {m : Manager} (h : Manager.new (procFiles es ls) o cpath = .ok m) :
    key ∈ m.paths ↔ ListedTwice es ls key := by
  obtain ⟨-, -, hrels, hmounts, hpaths⟩ := Manager.new_fields h
  have hboth : key ∈ m.paths ↔ key ∈ m.rels ∧ lastOf (readMounts ls) key ≠ none := by
    rw [mem_iff_lookup, hpaths key, joined_ne_none, mem_iff_lookup (t := m.mounts), hmounts key]
    apply and_congr_right
    intro hr
    rw [if_pos hr]
  rw [hboth, lastOf_readMounts, mem_iff_lookup, hrels key, ListedTwice]
  constructor
  · intro ⟨hr, l, hl, hs, hof, hk⟩
    have hne : key ≠ [] := by
      rintro rfl
      exact (l.names_ok (l.ofCgroup_iff.1 hof)).2 hk
    exact ⟨(lastOf_readPaths hne).1 hr, l, hl, hs, hof, hk⟩
  · intro ⟨⟨e, he, hc, hk⟩, hl⟩
    exact ⟨(lastOf_readPaths (e.controllers_ok key hk).1).2 ⟨e, he, hc, hk⟩, hl⟩

end

/-- Every key of the new manager is accepted, so that `set` never stops at one, exactly if every
name in both files is that of a subsystem. -/
theorem subsystemNames_iff (o : HashOrder) (es : List CgroupLine) (ls : List MountLine)
    (cpath : Chars) (hc : cpath.head? = some '/') :
    (∃ m, Manager.new (procFiles es ls) o cpath = .ok m ∧
      (∀ key ∈ m.paths, ∃ sub, getSubsystem key = .ok sub) ∧
      ∀ (g : ControlGuest) (r : CgroupResources) (update : Bool) (keys : List Chars)
        (s : Contents Chars), Visits m.paths keys →
        (m.set g r update keys s).1 ≠ .err (.nix .EINVAL)) ↔
    ∀ key, ListedTwice es ls key → Accepted key := by
  constructor
  · intro ⟨m, hm, hkeys, _⟩ key hkey
    exact accepted_iff.2 (hkeys key ((Manager.mem_paths_iff hm).2 hkey))
  · intro h
    obtain ⟨m, -, -, hm, -⟩ := Manager.new_eq o es ls hc
    have haccept : ∀ key ∈ m.paths, Accepted key :=
      fun key hkey => h key ((Manager.mem_paths_iff hm).1 hkey)
    refine ⟨m, hm, fun key hkey => accepted_iff.1 (haccept key hkey), ?_⟩
    intro g r update keys s _ he
    exact Manager.set_errs haccept keys s _ he .EINVAL rfl

/-- The line `5:rdma:/`. -/
def rdmaLine : CgroupLine where
  id := "5".toList
  controllers := ["rdma".toList]
  path := "/".toList
  id_ok := by decide
  controllers_ok := by decide
  path_ok := by decide
  absolute := by decide

/-- The line `41 25 0:36 / /sys/fs/cgroup/rdma rw - cgroup cgroup rw,rdma`. -/
def rdmaMount : MountLine :=
  { cpuMount with
    lead := ["41".toList, "25".toList, "0:36".toList, "/".toList]
    mountPoint := "/sys/fs/cgroup/rdma".toList
    options := "rw,rdma".toList
    lead_length := rfl
    before_ok := by decide
    options_ok := by decide
    names_ok := by decide }

theorem subsystemNames_cpu : ∃ m, Manager.new
      (procFiles [cpuLine "/docker/ab" (by decide) (by decide)] [cpuMount]) sortedOrder
        "/kata".toList = .ok m ∧
    (∀ key ∈ m.paths, ∃ sub, getSubsystem key = .ok sub) ∧
    ∀ (g : ControlGuest) (r : CgroupResources) (update : Bool) (keys : List Chars)
      (s : Contents Chars), Visits m.paths keys →
      (m.set g r update keys s).1 ≠ .err (.nix .EINVAL) := by
  refine (subsystemNames_iff sortedOrder [cpuLine "/docker/ab" (by decide) (by decide)] [cpuMount]
    "/kata".toList (by decide)).2 ?_
  intro key ⟨⟨e, he, _, hkey⟩, _⟩
  have hall : ∀ key ∈ ["cpu".toList, "cpuacct".toList], Accepted key := by decide
  rw [List.mem_singleton.1 he] at hkey
  exact hall key hkey

/-- A controller that the agent mounts itself is not accepted. -/
theorem subsystemNames_rdma : ¬ ∀ (o : HashOrder) (es : List CgroupLine) (ls : List MountLine)
    (cpath : Chars), cpath.head? = some '/' → ∃ m, Manager.new (procFiles es ls) o cpath = .ok m ∧
      (∀ key ∈ m.paths, ∃ sub, getSubsystem key = .ok sub) ∧
      ∀ (g : ControlGuest) (r : CgroupResources) (update : Bool) (keys : List Chars)
        (s : Contents Chars), Visits m.paths keys →
        (m.set g r update keys s).1 ≠ .err (.nix .EINVAL) := by
  intro h
  obtain ⟨m, hm, hkeys, -⟩ := h sortedOrder [rdmaLine] [rdmaMount] "/kata".toList (by decide)
  have hlisted : ListedTwice [rdmaLine] [rdmaMount] "rdma".toList := by
    refine ⟨⟨rdmaLine, List.mem_singleton.2 rfl, by decide, by decide⟩, rdmaMount,
      List.mem_singleton.2 rfl, by decide, by decide, by decide⟩
  have haccepted := accepted_iff.2 (hkeys _ ((Manager.mem_paths_iff hm).2 hlisted))
  exact absurd haccepted (by decide)

end KataAgent
