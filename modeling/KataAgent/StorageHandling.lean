import KataAgent.Sandbox

namespace KataAgent
open Fallible
set_option autoImplicit true

variable {g : StorageGuest} {storage : Storage} {s t : Agent} {sb : Sandbox} {p q : String}

/-- The two drivers whose storages have a reference counter. -/
def Storage.counted (storage : Storage) : Prop :=
  storage.driver = "ephemeral" ∨ storage.driver = "local"

instance : Decidable (Storage.counted storage) := inferInstanceAs (Decidable (_ ∨ _))

/-- How the mount of a storage ends. -/
def Storage.mountOutcome (g : StorageGuest) (storage : Storage) : Outcome ErrorKind Unit := do
  prepareDestination g storage
  storage.bareMount.check
  .ofFault (g.mount.map storage.bareMount.failure)

def Storage.sourceOutcome (g : StorageGuest) (storage : Storage) : Outcome ErrorKind String :=
  if storage.driver = "blk" then blkSource g storage
  else if storage.driver = "scsi" then g.scsiDeviceName storage.source
  else .ok storage.source

def Storage.commonOutcome (g : StorageGuest) (storage : Storage) : Outcome ErrorKind String := do
  storage.mountOutcome g
  .ok storage.mountPoint

def Storage.mounted (g : StorageGuest) (storage : Storage) : Outcome ErrorKind String := do
  let source ← storage.sourceOutcome g
  { storage with source := source }.commonOutcome g

/-- How the handler of a storage ends, given whether its mount point is counted already. -/
def Storage.handled (g : StorageGuest) (known : Bool) (storage : Storage) :
    Outcome ErrorKind String :=
  if storage.driver = "ephemeral" then
    if known then .ok ""
    else do
      .ofFault g.createPoint
      storage.mounted g
  else if storage.driver = "local" then
    if known then .ok ""
    else do
      .ofFault g.createPoint
      setMode g ((parseOptions storage.options).lookup "mode")
      .ok ""
  else if storage.driver ∈ ["blk", "9p", "virtio-fs", "mmioblk", "scsi"] then storage.mounted g
  else .err (.errorCode ("Failed to find the storage handler " ++ storage.driver))

def Sandbox.known (sb : Sandbox) (path : String) : Bool := (sb.storages.lookup path).isSome

/-- The sandbox once the handler of a storage has been called. -/
def Sandbox.handle (storage : Storage) (sb : Sandbox) : Sandbox :=
  if storage.counted then (sb.setSandboxStorage storage.mountPoint).2 else sb

/-- The handler's result is the point of a new mount. -/
def Storage.attaches (storage : Storage) (o : Outcome ErrorKind String) : Prop :=
  o = .ok storage.mountPoint ∧ storage.mountPoint ≠ "" ∧ addsMount storage.bareMount.flags

instance : Decidable (Storage.attaches storage o) := inferInstanceAs (Decidable (_ ∧ _))

def Agent.attachPoint (storage : Storage) (o : Outcome ErrorKind String) (s : Agent) : Agent :=
  { s with
    mounts := if storage.attaches o then s.place storage.mountPoint :: s.mounts else s.mounts }

/-- The agent once the handler of a storage is back with its result. -/
def Agent.handle (storage : Storage) (o : Outcome ErrorKind String) (s : Agent) : Agent :=
  (s.setSandbox (s.sandbox.handle storage)).attachPoint storage o

theorem cString_ne_panic : cString p ≠ .panic := by
  rw [cString]
  split <;> nofun

theorem BareMount.check_ne_panic (b : BareMount) : b.check ≠ .panic := by
  rw [BareMount.check]
  split; · nofun
  split; · nofun
  apply Outcome.bind_ne_panic cString_ne_panic
  intro _
  apply Outcome.bind_ne_panic cString_ne_panic
  intro _
  split; · nofun
  apply Outcome.bind_ne_panic cString_ne_panic
  intro _
  split
  · nofun
  · exact cString_ne_panic

theorem BareMount.destination_of_check {b : BareMount} (h : b.check = .ok ()) :
    b.destination ≠ "" := by
  rw [BareMount.check] at h
  split at h; · cases h
  split at h; · cases h
  assumption

theorem ensureParentExists_ne_panic : ensureParentExists g p ≠ .panic := by
  rw [ensureParentExists]
  split; · nofun
  split
  · split
    · nofun
    · exact Outcome.ofFault_ne_panic
  · nofun

theorem prepareDestination_ne_panic : prepareDestination g storage ≠ .panic := by
  rw [prepareDestination]
  split
  · split
    · nofun
    · exact Outcome.ofFault_ne_panic
  · apply Outcome.bind_ne_panic ensureParentExists_ne_panic
    intro _
    split <;> exact Outcome.ofFault_ne_panic

theorem Storage.mountOutcome_ne_panic : storage.mountOutcome g ≠ .panic := by
  apply Outcome.bind_ne_panic prepareDestination_ne_panic
  intro _
  apply Outcome.bind_ne_panic storage.bareMount.check_ne_panic
  intro _
  exact Outcome.ofFault_ne_panic

theorem parseOctal_go_ne_panic (n : Nat) (cs : List Char) : parseOctal.go n cs ≠ .panic := by
  induction cs generalizing n with
  | nil => nofun
  | cons c cs ih =>
    rw [parseOctal.go]
    split
    · dsimp only
      split
      · exact ih _
      · nofun
    · nofun

theorem parseOctal_ne_panic : parseOctal p ≠ .panic := by
  rw [parseOctal]
  split
  · nofun
  · nofun
  · exact parseOctal_go_ne_panic 0 _
  · exact parseOctal_go_ne_panic 0 _

theorem setMode_ne_panic : setMode g mode ≠ .panic := by
  unfold setMode
  split
  · nofun
  · apply Outcome.bind_ne_panic Outcome.ofFault_ne_panic
    intro _
    apply Outcome.bind_ne_panic parseOctal_ne_panic
    intro _
    exact Outcome.ofFault_ne_panic

theorem Storage.mountPoint_ne_empty (h : storage.mountOutcome g = .ok ()) :
    storage.mountPoint ≠ "" := by
  obtain ⟨_, -, h⟩ := Outcome.bind_eq_ok.1 h
  obtain ⟨_, hc, -⟩ := Outcome.bind_eq_ok.1 h
  exact BareMount.destination_of_check hc

theorem mountStorage_apply (g : StorageGuest) (storage : Storage) (s : Agent) :
    mountStorage g storage s = (storage.mountOutcome g,
      if storage.mountOutcome g = .ok () then s.attach storage.bareMount else s) := by
  unfold mountStorage BareMount.mount Storage.mountOutcome
  cases hp : prepareDestination g storage with
  | err e => rfl
  | panic => rfl
  | ok _ =>
    cases hc : storage.bareMount.check with
    | err e => simp [Act.bind_apply]
    | panic => simp [Act.bind_apply]
    | ok _ =>
      cases hm : g.mount with
      | none => simp [Act.bind_apply, Outcome.ofFault]
      | some e => simp [Act.bind_apply, Outcome.ofFault]

@[simp] theorem Agent.attachPoint_err : s.attachPoint storage (.err e) = s := by
  rw [Agent.attachPoint]
  rw [if_neg (fun h => nomatch h.1)]

@[simp] theorem Agent.attachPoint_panic : s.attachPoint storage .panic = s := by
  rw [Agent.attachPoint]
  rw [if_neg (fun h => nomatch h.1)]

@[simp] theorem Agent.attachPoint_empty : s.attachPoint storage (.ok "") = s := by
  rw [Agent.attachPoint]
  rw [if_neg (fun h => h.2.1 (Outcome.ok.inj h.1).symm)]

theorem Agent.attach_eq (h : storage.mountPoint ≠ "") :
    s.attach storage.bareMount = s.attachPoint storage (.ok storage.mountPoint) := by
  unfold Agent.attach Agent.attachPoint
  by_cases ha : addsMount storage.bareMount.flags
  · rw [if_pos ha, if_pos ⟨rfl, h, ha⟩]
    rfl
  · rw [if_neg ha, if_neg fun hn => ha hn.2.2]

theorem commonStorageHandler_apply (g : StorageGuest) (storage : Storage) (s : Agent) :
    commonStorageHandler g storage s = (storage.commonOutcome g,
      s.attachPoint storage (storage.commonOutcome g)) := by
  have hm := mountStorage_apply g storage s
  rw [Storage.commonOutcome]
  cases ho : storage.mountOutcome g with
  | err e =>
    rw [ho, if_neg nofun] at hm
    rw [Outcome.err_bind, Agent.attachPoint_err]
    exact Act.bind_err hm
  | panic => exact absurd ho Storage.mountOutcome_ne_panic
  | ok _ =>
    rw [ho, if_pos rfl, Agent.attach_eq (Storage.mountPoint_ne_empty ho)] at hm
    exact Act.bind_ok hm

/-- A handler that resolves a source and mounts it. -/
theorem Storage.mounted_apply (g : StorageGuest) (storage : Storage) (s : Agent) :
    (do
      let source ← Act.lift (storage.sourceOutcome g)
      commonStorageHandler g { storage with source := source }) s =
      (storage.mounted g, s.attachPoint storage (storage.mounted g)) := by
  rw [Storage.mounted]
  cases hs : storage.sourceOutcome g with
  | err e => rw [Outcome.err_bind, Agent.attachPoint_err]; rfl
  | panic => rw [Outcome.panic_bind, Agent.attachPoint_panic]; rfl
  | ok source => exact commonStorageHandler_apply g { storage with source := source } s

theorem locked_apply {x : Act Agent ErrorKind α} (h : s.poisoned = false)
    (hx : x s = (o, t)) (ho : o ≠ .panic) : locked x s = (o, t) := by
  rw [locked]
  rw [if_neg (by simp [h]), hx]
  cases o with
  | ok a => rfl
  | err e => rfl
  | panic => exact absurd rfl ho

theorem locked_poisoned (x : Act Agent ErrorKind α) (h : s.poisoned = true) :
    locked x s = (.panic, s) := by
  rw [locked]
  rw [if_pos h]

theorem locked_congr {x y : Act Agent ErrorKind α} (hs : s.poisoned = false)
    (ht : t.poisoned = false) (h : x s = y t) : locked x s = locked y t := by
  unfold locked
  rw [if_neg (by simp [hs]), if_neg (by simp [ht]), h]

/-- What the mutex adds to a computation is at most its poison. -/
theorem locked_snd {τ : Type} {f : Agent → τ} (hf : ∀ s b, f { s with poisoned := b } = f s)
    (x : Act Agent ErrorKind α) (hs : s.poisoned = false) : f (locked x s).2 = f (x s).2 := by
  rw [locked]
  rw [if_neg (by simp [hs])]
  rcases x s with ⟨r, u⟩
  cases r with
  | ok a => rfl
  | err e => rfl
  | panic => exact hf u true

theorem locked_fst (x : Act Agent ErrorKind α) (hs : s.poisoned = false) :
    (locked x s).1 = (x s).1 := by
  rw [locked]
  rw [if_neg (by simp [hs])]
  rcases x s with ⟨r, u⟩
  cases r with
  | ok a => rfl
  | err e => rfl
  | panic => rfl

theorem locked_preserves {I : Agent → Prop} (hp : ∀ s b, I s → I { s with poisoned := b })
    {x : Act Agent ErrorKind α} (hx : Act.Preserves I x) : Act.Preserves I (locked x) := by
  intro s hs
  have h := hx s hs
  rw [locked]
  split
  · exact hs
  · rcases hr : x s with ⟨r, t⟩
    rw [hr] at h
    cases r with
    | ok a => exact h
    | err e => exact h
    | panic => exact hp t true h

theorem locked_ok {x : Act Agent ErrorKind α} (h : locked x s = (.ok a, t)) :
    s.poisoned = false ∧ x s = (.ok a, t) := by
  rw [locked] at h
  split at h
  · cases h
  · rename_i hp
    split at h
    · cases h
    · rename_i hx
      cases h
      exact ⟨by simpa using hp, hx⟩
    · cases h

theorem locked_err {x : Act Agent ErrorKind α} (h : locked x s = (.err e, t)) :
    s.poisoned = false ∧ x s = (.err e, t) := by
  rw [locked] at h
  split at h
  · cases h
  · rename_i hp
    split at h
    · cases h
    · cases h
    · rename_i hx
      cases h
      exact ⟨by simpa using hp, hx⟩

theorem Storage.mounted_ne_panic (h : storage.sourceOutcome g ≠ .panic) :
    storage.mounted g ≠ .panic := by
  apply Outcome.bind_ne_panic h
  intro source
  apply Outcome.bind_ne_panic Storage.mountOutcome_ne_panic
  nofun

theorem Storage.handled_ne_panic (h : storage.counted) : storage.handled g known ≠ .panic := by
  rw [Storage.handled]
  obtain hd | hd := h
  · rw [if_pos hd]
    split
    · nofun
    · apply Outcome.bind_ne_panic Outcome.ofFault_ne_panic
      intro _
      apply Storage.mounted_ne_panic
      simp [Storage.sourceOutcome, hd]
  · rw [if_neg (by simp [hd]), if_pos hd]
    split
    · nofun
    · apply Outcome.bind_ne_panic Outcome.ofFault_ne_panic
      intro _
      apply Outcome.bind_ne_panic setMode_ne_panic
      nofun

theorem countStorage_apply (s : Agent) (p : String) :
    countStorage p s =
      (.ok (!s.sandbox.known p), s.setSandbox (s.sandbox.setSandboxStorage p).2) := by
  unfold countStorage Sandbox.known Sandbox.setSandboxStorage
  cases s.sandbox.storages.lookup p with
  | none => rfl
  | some count => rfl

theorem Storage.mounted_of_ephemeral (h : storage.driver = "ephemeral") :
    storage.mounted g = storage.commonOutcome g := by
  unfold Storage.mounted Storage.sourceOutcome
  rw [if_neg (by simp [h]), if_neg (by simp [h])]
  rfl

theorem ephemeralStorageHandler_apply (hd : storage.driver = "ephemeral")
    (h : s.poisoned = false) : ephemeralStorageHandler g storage s =
      (storage.handled g (s.sandbox.known storage.mountPoint),
        s.handle storage (storage.handled g (s.sandbox.known storage.mountPoint))) := by
  apply locked_apply h _ (Storage.handled_ne_panic (.inl hd))
  apply (Act.bind_ok (countStorage_apply _ _)).trans
  unfold Agent.handle Sandbox.handle Storage.handled
  rw [if_pos (show storage.counted from .inl hd), if_pos hd]
  cases s.sandbox.known storage.mountPoint with
  | true => exact (congrArg _ Agent.attachPoint_empty).symm
  | false =>
    cases hc : g.createPoint with
    | some e => exact (congrArg _ Agent.attachPoint_err).symm
    | none =>
      have hm := commonStorageHandler_apply g storage
        (s.setSandbox (s.sandbox.setSandboxStorage storage.mountPoint).2)
      rw [← Storage.mounted_of_ephemeral hd] at hm
      exact hm

theorem localStorageHandler_apply (hd : storage.driver = "local")
    (h : s.poisoned = false) : localStorageHandler g storage s =
      (storage.handled g (s.sandbox.known storage.mountPoint),
        s.handle storage (storage.handled g (s.sandbox.known storage.mountPoint))) := by
  apply locked_apply h _ (Storage.handled_ne_panic (.inr hd))
  apply (Act.bind_ok (countStorage_apply _ _)).trans
  unfold Agent.handle Sandbox.handle Storage.handled
  have hne : storage.driver ≠ "ephemeral" := by simp [hd]
  rw [if_pos (show storage.counted from .inr hd), if_neg hne, if_pos hd]
  cases s.sandbox.known storage.mountPoint with
  | true => exact (congrArg _ Agent.attachPoint_empty).symm
  | false =>
    cases hc : g.createPoint with
    | some e => exact (congrArg _ Agent.attachPoint_err).symm
    | none =>
      cases hm : setMode g ((parseOptions storage.options).lookup "mode") with
      | err e => simp [Act.bind_apply, Outcome.ofFault]
      | panic => exact absurd hm setMode_ne_panic
      | ok _ => simp [Act.bind_apply, Outcome.ofFault]

theorem addStorage_of_plain (h : ¬ storage.counted) (known : Bool) : addStorage g storage s =
    (storage.handled g known, s.handle storage (storage.handled g known)) := by
  have hne : storage.driver ≠ "ephemeral" := fun hd => h (.inl hd)
  have hnl : storage.driver ≠ "local" := fun hd => h (.inr hd)
  have hs (o : Outcome ErrorKind String) : s.handle storage o = s.attachPoint storage o := by
    unfold Agent.handle Sandbox.handle
    rw [if_neg h]
    rfl
  rw [hs]
  rw [Storage.handled]
  rw [if_neg hne, if_neg hnl]
  split
  · rename_i hm
    have happly := Storage.mounted_apply g storage s
    simp only [List.mem_cons, List.not_mem_nil, or_false] at hm
    rcases hm with hd | hd | hd | hd | hd <;>
    · rw [← happly]
      unfold addStorage Storage.sourceOutcome
      rw [hd]
      rfl
  · rename_i hm
    have hl : storageHandlerList.lookup storage.driver = none := by
      simp only [List.mem_cons, List.not_mem_nil, or_false, not_or] at hm
      rw [List.lookup_eq_none_iff]
      simp [storageHandlerList, hne, hnl, hm]
    rw [addStorage]
    rw [hl]
    exact (congrArg _ Agent.attachPoint_err).symm

/-- What one round of the loop returns and leaves behind. -/
theorem addStorage_apply (h : storage.counted → s.poisoned = false) :
    addStorage g storage s = (storage.handled g (s.sandbox.known storage.mountPoint),
      s.handle storage (storage.handled g (s.sandbox.known storage.mountPoint))) := by
  by_cases hc : storage.counted
  · have hp := h hc
    obtain hd | hd := hc
    · rw [← ephemeralStorageHandler_apply hd hp]
      rw [addStorage]
      rw [hd]
      rfl
    · rw [← localStorageHandler_apply hd hp]
      rw [addStorage]
      rw [hd]
      rfl
  · exact addStorage_of_plain hc _

/-- The storages of a request that have a reference counter, by their points. -/
def countedPoints (storages : List Storage) : List String :=
  (storages.filter fun storage => storage.counted).map Storage.mountPoint

def Sandbox.countAll (points : List String) (sb : Sandbox) : Sandbox :=
  points.foldl (fun sb p => (sb.setSandboxStorage p).2) sb

/-- A counted storage comes before the first handler that fails. -/
def reachesCounted (g : Nat → StorageGuest) : List Storage → Prop
  | [] => False
  | storage :: storages => storage.counted ∨
      ((storage.handled (g 0) false).isOk ∧ reachesCounted (fun n => g (n + 1)) storages)

/-- Every handler of a request succeeds. -/
def handledAll (g : Nat → StorageGuest) : Sandbox → List Storage → Prop
  | _, [] => True
  | sb, storage :: storages =>
    (storage.handled (g 0) (sb.known storage.mountPoint)).isOk ∧
      handledAll (fun n => g (n + 1)) (sb.handle storage) storages

/-- The points that storages without a counter are mounted on, up to the first failure. -/
def mountedPoints (g : Nat → StorageGuest) : List Storage → List String
  | [] => []
  | storage :: storages =>
    let o := storage.handled (g 0) false
    (if storage.attaches o then [storage.mountPoint] else []) ++
      if o.isOk then mountedPoints (fun n => g (n + 1)) storages else []

instance decidableReachesCounted (g : Nat → StorageGuest) :
    (storages : List Storage) → Decidable (reachesCounted g storages)
  | [] => inferInstanceAs (Decidable False)
  | storage :: storages =>
    have := decidableReachesCounted (fun n => g (n + 1)) storages
    inferInstanceAs (Decidable (storage.counted ∨ (_ ∧ _)))

instance decidableHandledAll (g : Nat → StorageGuest) (sb : Sandbox) :
    (storages : List Storage) → Decidable (handledAll g sb storages)
  | [] => inferInstanceAs (Decidable True)
  | storage :: storages =>
    have := decidableHandledAll (fun n => g (n + 1)) (sb.handle storage) storages
    inferInstanceAs (Decidable (_ ∧ _))

section
variable {g : Nat → StorageGuest} {storage : Storage} {storages : List Storage}

/-- A handler that is not back in the agent's caller found the mutex poisoned. -/
theorem addStorage_cases (g : StorageGuest) (storage : Storage) (s : Agent) :
    addStorage g storage s = (storage.handled g (s.sandbox.known storage.mountPoint),
      s.handle storage (storage.handled g (s.sandbox.known storage.mountPoint))) ∨
    addStorage g storage s = (.panic, s) := by
  by_cases h : storage.counted → s.poisoned = false
  · exact .inl (addStorage_apply h)
  · right
    obtain ⟨hc, hp⟩ := Classical.not_imp.1 h
    have hl (x : Act Agent ErrorKind String) : locked x s = (.panic, s) := by
      rw [locked]
      rw [if_pos (by simpa using hp)]
    rw [addStorage]
    obtain hd | hd := hc
    · rw [hd]
      exact hl _
    · rw [hd]
      exact hl _

theorem addStorages_preserves {I : Agent → Prop}
    (hI : ∀ s storage o, I s → I (s.handle storage o)) (g : Nat → StorageGuest)
    (storages : List Storage) : Act.Preserves I (addStorages g storages) := by
  induction storages generalizing g with
  | nil => exact .pure _
  | cons storage storages ih =>
    apply Act.Preserves.bind
    · intro s hs
      obtain h | h := addStorage_cases (g 0) storage s
      · rw [h]
        exact hI _ _ _ hs
      · rw [h]
        exact hs
    · intro mountPoint
      exact .bind (ih _) fun _ => .pure _

theorem Storage.handled_of_plain {g : StorageGuest} (h : ¬ storage.counted) (known : Bool) :
    storage.handled g known = storage.handled g false := by
  unfold Storage.handled
  rw [if_neg fun hd => h (.inl hd), if_neg fun hd => h (.inr hd), if_neg fun hd => h (.inl hd),
    if_neg fun hd => h (.inr hd)]

theorem Storage.handled_ok_of_plain {g : StorageGuest} (h : ¬ storage.counted)
    (ho : storage.handled g known = .ok p) : p = storage.mountPoint ∧ p ≠ "" := by
  rw [Storage.handled] at ho
  rw [if_neg fun hd => h (.inl hd), if_neg fun hd => h (.inr hd)] at ho
  split at ho
  · obtain ⟨source, -, ho⟩ := Outcome.bind_eq_ok.1 ho
    obtain ⟨_, hm, ho⟩ := Outcome.bind_eq_ok.1 ho
    cases ho
    exact ⟨rfl, Storage.mountPoint_ne_empty hm⟩
  · cases ho

theorem Sandbox.lookup_setSandboxStorage (sb : Sandbox) (p q : String) :
    (sb.setSandboxStorage q).2.storages.lookup p =
      if p = q then some ((sb.storages.lookup q).elim 1 (· + 1)) else sb.storages.lookup p := by
  rw [Sandbox.setSandboxStorage]
  cases sb.storages.lookup q with
  | none => exact Table.lookup_insert _ _ _ _
  | some count => exact Table.lookup_insert _ _ _ _

theorem reachesCounted_cons (known : Bool) : reachesCounted g (storage :: storages) ↔
    storage.counted ∨ ((storage.handled (g 0) known).isOk ∧
      reachesCounted (fun n => g (n + 1)) storages) := by
  by_cases hc : storage.counted
  · exact ⟨fun _ => .inl hc, fun _ => .inl hc⟩
  · rw [Storage.handled_of_plain hc known]
    rfl

theorem Sandbox.handle_of_plain (h : ¬ storage.counted) (sb : Sandbox) : sb.handle storage = sb :=
  if_neg h

/-- A mount point in front of the list of those that follow. -/
def consPoint (p : String) (mountList : List String) : List String :=
  if p = "" then mountList else p :: mountList

theorem addStorages_cons {s : Agent} (h : addStorage (g 0) storage s = (.ok p, t)) :
    addStorages g (storage :: storages) s =
      ((addStorages (fun n => g (n + 1)) storages t).1 >>= fun m => .ok (consPoint p m),
        (addStorages (fun n => g (n + 1)) storages t).2) :=
  (Act.bind_ok h).trans (Act.bind_pure_apply _)

theorem addStorages_cons_err {s : Agent} (h : addStorage (g 0) storage s = (.err e, t)) :
    addStorages g (storage :: storages) s = (.err e, t) := Act.bind_err h

theorem addStorages_cons_panic {s : Agent} (h : addStorage (g 0) storage s = (.panic, t)) :
    addStorages g (storage :: storages) s = (.panic, t) := Act.bind_panic h

theorem addStorage_plain (h : ¬ storage.counted) (s : Agent) : addStorage (g 0) storage s =
    (storage.handled (g 0) false, s.attachPoint storage (storage.handled (g 0) false)) := by
  have ha := addStorage_of_plain (g := g 0) (s := s) h false
  rw [Agent.handle] at ha
  rwa [Sandbox.handle_of_plain h] at ha

/-- What the loop mounts when no counted storage is reached. -/
theorem addStorages_mounts (h : ¬ reachesCounted g storages) (s : Agent) :
    (addStorages g storages s).2 =
      { s with mounts := ((mountedPoints g storages).map s.place).reverse ++ s.mounts } := by
  induction storages generalizing g s with
  | nil => rfl
  | cons storage storages ih =>
    obtain ⟨hc, h⟩ := not_or.1 h
    have ha := addStorage_plain (g := g) hc s
    rw [mountedPoints]
    cases ho : storage.handled (g 0) false with
    | err e =>
      rw [ho, Agent.attachPoint_err] at ha
      simp [addStorages_cons_err ha, Outcome.isOk, Storage.attaches]
    | panic =>
      rw [ho, Agent.attachPoint_panic] at ha
      simp [addStorages_cons_panic ha, Outcome.isOk, Storage.attaches]
    | ok p =>
      rw [ho] at ha h
      rw [addStorages_cons ha]
      apply (ih (fun hr => h ⟨rfl, hr⟩) _).trans
      rw [Agent.attachPoint]
      split <;> simp [Outcome.isOk, *]

/-- When the loop succeeds though no counted storage is reached. -/
theorem addStorages_plain_ok (h : ¬ reachesCounted g storages) (s : Agent) :
    (addStorages g storages s).1 = .ok m ↔
      handledAll g s.sandbox storages ∧ m = storages.map Storage.mountPoint := by
  induction storages generalizing g s m with
  | nil => simp [addStorages, handledAll, eq_comm]
  | cons storage storages ih =>
    obtain ⟨hc, h⟩ := not_or.1 h
    have ha := addStorage_plain (g := g) hc s
    rw [handledAll]
    rw [Storage.handled_of_plain hc (s.sandbox.known _), Sandbox.handle_of_plain hc]
    cases ho : storage.handled (g 0) false with
    | err e =>
      rw [ho] at ha
      rw [addStorages_cons_err ha]
      exact ⟨nofun, fun hk => nomatch hk.1.1⟩
    | panic =>
      rw [ho] at ha
      rw [addStorages_cons_panic ha]
      exact ⟨nofun, fun hk => nomatch hk.1.1⟩
    | ok p =>
      obtain ⟨hp, hne⟩ := Storage.handled_ok_of_plain hc ho
      rw [ho] at ha h
      rw [addStorages_cons ha, Outcome.bind_eq_ok]
      have hr (l : List String) := ih (m := l) (fun hr => h ⟨rfl, hr⟩)
        (s.attachPoint storage (.ok p))
      constructor
      · rintro ⟨l, hl, hm⟩
        obtain ⟨hall, hl⟩ := (hr l).1 hl
        cases hm
        refine ⟨⟨rfl, hall⟩, ?_⟩
        rw [consPoint, if_neg hne, hl, hp]
        rfl
      · rintro ⟨⟨-, hall⟩, hm⟩
        refine ⟨_, (hr _).2 ⟨hall, rfl⟩, ?_⟩
        rw [consPoint, if_neg hne, hm, hp]
        rfl

/-- The counters that the loop raises, whether or not it gets to its end. -/
theorem addStorages_counts (h : addStorages g storages s = (o, t)) (ho : o ≠ .panic) :
    ∃ points : List String, points.length ≤ storages.length ∧
      t.sandbox = s.sandbox.countAll points ∧ (reachesCounted g storages → points ≠ []) ∧
      ∀ m, o = .ok m → points = countedPoints storages := by
  induction storages generalizing g s o t with
  | nil =>
    cases h
    exact ⟨[], le_rfl, rfl, nofun, fun _ _ => rfl⟩
  | cons storage storages ih =>
    have hfirst (points : List String) (sb : Sandbox) : ∃ points',
        points'.length ≤ points.length + 1 ∧
        (sb.handle storage).countAll points = sb.countAll points' ∧
        (storage.counted ∨ points ≠ [] → points' ≠ []) ∧
        (points = countedPoints storages → points' = countedPoints (storage :: storages)) := by
      unfold Sandbox.handle countedPoints
      by_cases hc : storage.counted
      · rw [if_pos hc, List.filter_cons_of_pos (by simpa using hc)]
        exact ⟨storage.mountPoint :: points, le_rfl, rfl, nofun, fun hp => by rw [hp]; rfl⟩
      · rw [if_neg hc, List.filter_cons_of_neg (by simpa using hc)]
        exact ⟨points, Nat.le_succ _, rfl, fun h => h.resolve_left hc, id⟩
    obtain ha | ha := addStorage_cases (g 0) storage s
    · cases hr : storage.handled (g 0) (s.sandbox.known storage.mountPoint) with
      | panic =>
        rw [hr] at ha
        cases (addStorages_cons_panic ha).symm.trans h
        exact absurd rfl ho
      | err e =>
        rw [hr] at ha
        cases (addStorages_cons_err ha).symm.trans h
        obtain ⟨points, hl, hs, hn, -⟩ := hfirst [] s.sandbox
        refine ⟨points, hl.trans (by simp), hs, fun hc => hn ?_, nofun⟩
        rw [reachesCounted_cons (s.sandbox.known storage.mountPoint), hr] at hc
        exact hc.imp_right fun hk => nomatch hk.1
      | ok p =>
        rw [hr] at ha
        rw [addStorages_cons ha] at h
        cases h
        rcases hrest : addStorages (fun n => g (n + 1)) storages (s.handle storage (.ok p))
          with ⟨r, u⟩
        rw [hrest] at ho
        have hne : r ≠ .panic := by
          rintro rfl
          exact ho rfl
        obtain ⟨points, hl, hs, hn, hok⟩ := ih hrest hne
        obtain ⟨points', hl', hs', hn', hok'⟩ := hfirst points s.sandbox
        refine ⟨points', hl'.trans (Nat.succ_le_succ hl), hs.trans hs', fun hc => hn' ?_, ?_⟩
        · rw [reachesCounted_cons (s.sandbox.known storage.mountPoint)] at hc
          exact hc.imp_right fun hk => hn hk.2
        · intro m hm
          obtain ⟨l, hl, -⟩ := Outcome.bind_eq_ok.1 hm
          exact hok' (hok l hl)
    · cases (addStorages_cons_panic ha).symm.trans h
      exact absurd rfl ho

theorem addStorages_ok (hp : s.poisoned = false) (h : handledAll g s.sandbox storages) :
    ∃ m t, addStorages g storages s = (.ok m, t) := by
  induction storages generalizing g s with
  | nil => exact ⟨[], s, rfl⟩
  | cons storage storages ih =>
    obtain ⟨ho, h⟩ := h
    obtain ⟨p, ho⟩ := Outcome.isOk_iff.1 ho
    have ha : addStorage (g 0) storage s = _ := addStorage_apply fun _ => hp
    rw [ho] at ha
    obtain ⟨m, t, hm⟩ := ih (s := s.handle storage (.ok p)) hp h
    rw [addStorages_cons ha, hm]
    exact ⟨_, t, rfl⟩

end

end KataAgent
