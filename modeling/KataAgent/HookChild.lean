import KataAgent.ContainerObject
import KataAgent.EnvEntries
import Mathlib.Data.UInt

namespace KataAgent
open Fallible
set_option autoImplicit true

def ETIMEDOUT : Int32 := 110

def EPIPE : Int32 := 32

/-- How the process of a hook ends. -/
inductive ExitStatus where
  | exited (code : UInt8)
  | signaled (sig : Nat) (h : 0 < sig ∧ sig < 128)
  deriving DecidableEq

/-- The status that the worker thread makes of it. -/
def ExitStatus.hookCode : ExitStatus → Int32
  | .exited code => if code = 0 then 0 else (code.toUInt32 ||| 0x80000000).toInt32
  | .signaled sig _ => .ofNat sig

/-- What the process of a hook does, as the calls of the worker thread see it. -/
structure HookCourse where
  /-- The end of `write_all`, which may wait for ever. -/
  stdin : Option (Option Errno)
  /-- Whether the output is Unicode, once every holder of it has closed it. -/
  stdout : Option Bool
  exit : Option ExitStatus
  waitFails : Option Errno

/-- What the guest answers to the child that runs a hook. -/
structure HookChild where
  /-- The environment of the agent. -/
  inherited : Vars
  /-- Whether the canonical path is Unicode. -/
  unicode : Bool
  /-- The pid of the hook's process, if it could be made. -/
  spawn : Option Int32
  /-- As long as no signal comes from the child. -/
  course : HookCourse
  /-- The worker thread has not ended when the timeout has passed. -/
  late : Bool
  /-- With a SIGKILL at the timeout. -/
  killed : HookCourse

/-- The worker thread between the two values that it sends. -/
def HookCourse.worker (c : HookCourse) : Stalling ErrorKind Int32 :=
  Stalling.bind (c.stdin.map fun fault => (syscall fault).unwrap) fun _ =>
  Stalling.bind (c.stdout.map fun utf8 => if utf8 then .ok () else .panic) fun _ =>
  match c.waitFails with
  | some _ => some (.ok 0)
  | none => c.exit.map fun status => .ok status.hookCode

/-- One of the calls waits for ever. -/
def HookCourse.stalls (c : HookCourse) : Bool :=
  match c.stdin with
  | none => true
  | some (some _) => false
  | some none =>
    match c.stdout with
    | none => true
    | some false => false
    | some true => c.waitFails.isNone && c.exit.isNone

/-- The worker thread up to the pid that it sends. -/
def Hook.spawn (h : Hook) (g : HookChild) : Outcome ErrorKind Int32 := do
  let _ ← hookVars g.inherited h.env
  if g.unicode then .ofUnwrap g.spawn else .panic

/-- The receiver gives up at the timeout; a thread that never ends is late. -/
def Hook.timedOut (h : Hook) (g : HookChild) : Bool :=
  0 < h.timeout && (g.late || g.course.stalls)

/-- What the process does in the end. -/
def Hook.course (h : Hook) (g : HookChild) : HookCourse :=
  if h.timedOut g then g.killed else g.course

/-- The status that the child gets from the channel. -/
def Hook.received (h : Hook) (g : HookChild) : Stalling ErrorKind Int32 :=
  if h.timedOut g then some (.ok (-ETIMEDOUT))
  else g.course.worker.map fun
    | .ok code => .ok code
    | _ => .ok (-EPIPE)

/-- The child of `execute_hook`, with the word that it writes before it exits. -/
def Hook.executeChild (h : Hook) (g : HookChild) : Stalling ErrorKind Int32 :=
  Stalling.bind (some (h.spawn g)) fun _ =>
  Stalling.bind (h.received g) fun status =>
  Stalling.bind ((h.course g).worker.map Outcome.unwrap) fun _ =>
  some (.ok status)

/-- What the agent makes of the word. -/
def hookStatus (status : Int32) : Outcome ErrorKind Unit :=
  if status ≠ 0 then
    if status = -ETIMEDOUT then .err (.nix .ETIMEDOUT)
    else if status = -EPIPE then .err (.nix .EPIPE)
    else .err (.nix .UnknownErrno)
  else .ok ()

/-- The agent's `read_sync`: it holds the other end of the pipe, so that without a word there is no
end of file either. -/
def Hook.executeParent (child : Stalling ErrorKind Int32) : Stalling ErrorKind Unit :=
  match child with
  | some (.ok status) => some (hookStatus status)
  | _ => none

/-- What the guest answers to `execute_hook`. -/
structure HookAnswers where
  canonicalize : Option ErrorKind
  /-- `path.exists()`. -/
  found : Bool
  serialize : Option ErrorKind
  pipe : Option Errno
  fork : Option Errno
  child : HookChild

/-- `execute_hook` up to its `fork`. -/
def HookAnswers.forked (a : HookAnswers) : Outcome ErrorKind Unit := do
  .ofFault a.canonicalize
  .ofFault (if a.found then none else some (.nix .EINVAL))
  .ofFault a.serialize
  syscall a.pipe
  syscall a.fork

/-- `execute_hook`, in the agent. -/
def Hook.execute (h : Hook) (a : HookAnswers) : Stalling ErrorKind Unit :=
  Stalling.bind (some a.forked) fun _ => Hook.executeParent (h.executeChild a.child)

/-- How a call that returns ends, as the container object sees it. -/
def Hook.answer (h : Hook) (a : HookAnswers) : Option HookGuest :=
  match a.forked with
  | .ok _ =>
    match h.executeChild a.child with
    | some (.ok status) =>
      match hookStatus status with
      | .err e => some ⟨none, some e⟩
      | _ => some ⟨none, none⟩
    | _ => none
  | .err e => some ⟨some e, none⟩
  | .panic => none

/-- The process is made and exits successfully. -/
def Hook.Succeeds (h : Hook) (g : HookChild) : Prop :=
  (∃ pid, h.spawn g = .ok pid) ∧ (h.course g).exit = some (.exited 0)

/-- No success is reported for anything else, and the other way round. -/
def Hook.Told (h : Hook) (g : HookChild) : Prop :=
  if h.timedOut g then (h.course g).exit ≠ some (.exited 0)
  else (h.course g).waitFails = none ∨ (h.course g).exit = some (.exited 0)

/-- The child writes a word, which is zero exactly if the hook succeeds, and the agent returns, with
an error exactly if it does not. -/
structure Hook.Reported (h : Hook) (g : HookChild) : Prop where
  word : ∃ status, h.executeChild g = some (.ok status) ∧ (status = 0 ↔ h.Succeeds g)
  agent : ∃ r, Hook.executeParent (h.executeChild g) = some r ∧ r ≠ .panic ∧
    (r = .ok () ↔ h.Succeeds g)

/-- The hook gets started. -/
structure Hook.Starts (h : Hook) (g : HookChild) : Prop where
  entries : ∀ e ∈ h.env, (entryOf e.toList).isSome
  nulFree : ∀ key value, lastValue h.env key = some value →
    KataAgent.nulFree key ∧ KataAgent.nulFree (firstPart value)
  unicode : g.unicode = true
  spawned : g.spawn.isSome

/-- The process takes its input, closes its output, which is Unicode, and ends. -/
structure HookCourse.Ends (c : HookCourse) : Prop where
  stdin : c.stdin = some none
  stdout : c.stdout = some true
  waited : c.waitFails.isSome ∨ c.exit.isSome

theorem ExitStatus.hookCode_eq_zero {status : ExitStatus} :
    status.hookCode = 0 ↔ status = .exited 0 := by
  cases status with
  | exited code =>
    rw [ExitStatus.hookCode]
    split
    · rename_i h
      exact iff_of_true rfl (congrArg ExitStatus.exited h)
    · rename_i h
      apply iff_of_false
      · intro hz
        have hu : code.toUInt32 ||| 0x80000000 = 0 := congrArg Int32.toUInt32 hz
        rw [UInt32.or_eq_zero_iff] at hu
        exact absurd hu.2 (by decide)
      · rintro ⟨⟩
        exact h rfl
  | signaled sig h =>
    apply iff_of_false
    · intro hz
      have hi : (Int32.ofNat sig).toInt = 0 := congrArg Int32.toInt hz
      rw [Int32.toInt_ofNat_of_lt (by omega)] at hi
      omega
    · nofun

theorem HookCourse.worker_stalls (c : HookCourse) : c.worker = none ↔ c.stalls = true := by
  rw [HookCourse.worker, HookCourse.stalls]
  rcases c.stdin with _ | fault
  · exact iff_of_true rfl rfl
  · cases fault with
    | some e => exact iff_of_false nofun Bool.false_ne_true
    | none =>
      rcases c.stdout with _ | utf8
      · exact iff_of_true rfl rfl
      · cases utf8 with
        | false => exact iff_of_false nofun Bool.false_ne_true
        | true =>
          cases c.waitFails with
          | some e => exact iff_of_false nofun Bool.false_ne_true
          | none =>
            cases c.exit with
            | none => exact iff_of_true rfl rfl
            | some status => exact iff_of_false nofun Bool.false_ne_true

theorem HookCourse.worker_ends (c : HookCourse) :
    (∃ code, c.worker = some (.ok code)) ↔ c.Ends := by
  constructor
  · rintro ⟨code, h⟩
    obtain ⟨_, hin, h⟩ := Stalling.bind_eq_ok.1 h
    obtain ⟨_, hout, h⟩ := Stalling.bind_eq_ok.1 h
    obtain ⟨fault, hf, hin⟩ := Option.map_eq_some_iff.1 hin
    obtain ⟨utf8, hu, hout⟩ := Option.map_eq_some_iff.1 hout
    rw [Outcome.unwrap_eq_ok, syscall_eq_ok] at hin
    constructor
    · rw [hf, hin]
    · cases utf8 with
      | true => exact hu
      | false => cases hout
    · split at h
      · rename_i hw
        exact .inl (hw ▸ rfl)
      · obtain ⟨status, hs, -⟩ := Option.map_eq_some_iff.1 h
        exact .inr (hs ▸ rfl)
  · rintro ⟨hin, hout, hw⟩
    rw [HookCourse.worker, hin, hout]
    cases hf : c.waitFails with
    | some e => exact ⟨0, rfl⟩
    | none =>
      rw [hf] at hw
      obtain ⟨status, hs⟩ := Option.isSome_iff_exists.1 (hw.resolve_left Bool.false_ne_true)
      rw [hs]
      exact ⟨_, rfl⟩

/-- The code is zero where the wait fails, or the process exits successfully. -/
theorem HookCourse.worker_code {c : HookCourse} (h : c.worker = some (.ok code)) :
    code = 0 ↔ c.waitFails ≠ none ∨ c.exit = some (.exited 0) := by
  obtain ⟨_, -, h⟩ := Stalling.bind_eq_ok.1 h
  obtain ⟨_, -, h⟩ := Stalling.bind_eq_ok.1 h
  split at h
  · rename_i hw
    cases h
    exact iff_of_true rfl (.inl (hw ▸ Option.some_ne_none _))
  · rename_i hw
    obtain ⟨status, hs, hc⟩ := Option.map_eq_some_iff.1 h
    cases hc
    rw [ExitStatus.hookCode_eq_zero, hs, hw, Option.some.injEq, or_iff_right (not_not_intro rfl)]

theorem Hook.spawn_starts (h : Hook) (g : HookChild) :
    (∃ pid, h.spawn g = .ok pid) ↔ h.Starts g := by
  constructor
  · rintro ⟨pid, hp⟩
    obtain ⟨vars, hv, hp⟩ := Outcome.bind_eq_ok.1 hp
    obtain ⟨hentries, hnul⟩ := hookVars_isOk.1 ⟨vars, hv⟩
    split at hp
    · rename_i hu
      refine ⟨hentries, hnul, hu, ?_⟩
      cases hs : g.spawn with
      | some pid => rfl
      | none =>
        rw [hs] at hp
        cases hp
    · cases hp
  · rintro ⟨hentries, hnul, hu, hs⟩
    have hvars : ∃ vars, hookVars g.inherited h.env = .ok vars :=
      hookVars_isOk.2 ⟨hentries, hnul⟩
    obtain ⟨vars, hv⟩ := hvars
    obtain ⟨pid, hpid⟩ := Option.isSome_iff_exists.1 hs
    apply Exists.intro pid
    rw [Hook.spawn, hv, Outcome.ok_bind, if_pos hu, hpid]
    rfl

/-- The word that the child writes, if it comes to that. -/
theorem Hook.executeChild_eq_ok {h : Hook} {g : HookChild} :
    h.executeChild g = some (.ok status) ↔ h.Starts g ∧
      ∃ code, (h.course g).worker = some (.ok code) ∧
        status = if h.timedOut g then -ETIMEDOUT else code := by
  rw [Hook.executeChild, Stalling.bind_eq_ok, ← Hook.spawn_starts]
  constructor
  · rintro ⟨pid, hp, hx⟩
    obtain ⟨status', hr, hx⟩ := Stalling.bind_eq_ok.1 hx
    obtain ⟨code, hj, hx⟩ := Stalling.bind_eq_ok.1 hx
    cases hx
    obtain ⟨o, ho, hu⟩ := Option.map_eq_some_iff.1 hj
    cases Outcome.unwrap_eq_ok.1 hu
    refine ⟨⟨pid, Option.some.inj hp⟩, code, ho, ?_⟩
    rw [Hook.received] at hr
    rw [Hook.course] at ho
    split
    · rename_i ht
      rw [if_pos ht] at hr
      exact (Outcome.ok.inj (Option.some.inj hr)).symm
    · rename_i ht
      rw [if_neg ht] at hr ho
      rw [ho] at hr
      exact (Outcome.ok.inj (Option.some.inj hr)).symm
  · rintro ⟨⟨pid, hp⟩, code, hc, rfl⟩
    refine ⟨pid, congrArg some hp, Stalling.bind_eq_ok.2
      ⟨if h.timedOut g then -ETIMEDOUT else code, ?_, ?_⟩⟩
    · rw [Hook.course] at hc
      rw [Hook.received]
      split
      · rfl
      · rename_i ht
        rw [if_neg ht] at hc
        rw [hc]
        rfl
    · rw [hc]
      rfl

theorem hookStatus_ne_panic (status : Int32) : hookStatus status ≠ .panic := by
  rw [hookStatus]
  split
  · split
    · nofun
    · split
      · nofun
      · nofun
  · nofun

theorem hookStatus_eq_ok {status : Int32} : hookStatus status = .ok () ↔ status = 0 := by
  rw [hookStatus]
  split
  · rename_i h
    apply iff_of_false _ h
    split
    · nofun
    · split
      · nofun
      · nofun
  · rename_i h
    exact iff_of_true rfl (of_not_not h)

/-- The status of a hook that ran to its end tells whether it succeeded exactly if it is told. -/
theorem Hook.told_iff {h : Hook} {g : HookChild} (hs : h.Starts g)
    (hc : (h.course g).worker = some (.ok code)) :
    ((if h.timedOut g then -ETIMEDOUT else code) = 0 ↔ h.Succeeds g) ↔ h.Told g := by
  have hstart := (Hook.spawn_starts h g).2 hs
  rw [Hook.Succeeds, and_iff_right hstart, Hook.Told]
  split
  · have hne : ¬ (-ETIMEDOUT = 0) := by decide
    rw [iff_false_left hne]
  · rw [HookCourse.worker_code hc]
    by_cases he : (h.course g).exit = some (.exited 0)
    · simp [he]
    · simp [he]

/-- A hook is reported as it ends exactly if it gets started, its process takes its input, closes
its output, which is Unicode, and ends, and the status tells how. -/
theorem Hook.reported_iff (h : Hook) (g : HookChild) :
    h.Reported g ↔ h.Starts g ∧ (h.course g).Ends ∧ h.Told g := by
  constructor
  · rintro ⟨⟨status, hw, hz⟩, -⟩
    obtain ⟨hs, code, hc, rfl⟩ := Hook.executeChild_eq_ok.1 hw
    exact ⟨hs, (HookCourse.worker_ends _).1 ⟨code, hc⟩, (Hook.told_iff hs hc).1 hz⟩
  · rintro ⟨hs, he, ht⟩
    obtain ⟨code, hc⟩ := (HookCourse.worker_ends _).2 he
    have hw := Hook.executeChild_eq_ok.2 ⟨hs, code, hc, rfl⟩
    have hz := (Hook.told_iff hs hc).2 ht
    refine ⟨⟨_, hw, hz⟩, _, congrArg Hook.executeParent hw, hookStatus_ne_panic _, ?_⟩
    exact hookStatus_eq_ok.trans hz

theorem HookAnswers.forked_ne_panic (a : HookAnswers) : a.forked ≠ .panic := by
  rw [HookAnswers.forked]
  apply Outcome.bind_ne_panic Outcome.ofFault_ne_panic
  intro _
  apply Outcome.bind_ne_panic Outcome.ofFault_ne_panic
  intro _
  apply Outcome.bind_ne_panic Outcome.ofFault_ne_panic
  intro _
  exact Outcome.bind_ne_panic Outcome.ofFault_ne_panic fun _ => Outcome.ofFault_ne_panic

/-- A hook that returns to the agent ends as the container object takes it to. -/
theorem Hook.execute_eq (h : Hook) (a : HookAnswers) (r : HookRun) (j : Jail) :
    h.execute a = (h.answer a).map fun g => (executeHookFor g r j).1 := by
  rw [Hook.execute, Hook.answer]
  cases hf : a.forked with
  | panic => exact absurd hf a.forked_ne_panic
  | err e => rfl
  | ok _ =>
    rw [Stalling.bind]
    rcases h.executeChild a.child with _ | o
    · rfl
    · cases o with
      | panic => rfl
      | err e => rfl
      | ok status =>
        rw [Hook.executeParent]
        dsimp only
        cases hs : hookStatus status with
        | panic => exact absurd hs (hookStatus_ne_panic status)
        | err e => rfl
        | ok _ => rfl

/-- A process that takes its input, prints nothing and exits. -/
def politeCourse : HookCourse := ⟨some none, some true, some (.exited 0), none⟩

def politeHook : HookChild := ⟨∅, true, some 7, politeCourse, false, politeCourse⟩

/-- A program that cannot be run leaves the agent without a word, and so does one that never ends
where there is no timeout. -/
theorem Hook.unreported : (¬ ∀ (h : Hook) (g : HookChild), h.Reported g) ∧
    Hook.executeParent (Hook.executeChild ⟨"/bin/hook", [], [], 0⟩
      { politeHook with spawn := none }) = none ∧
    Hook.executeParent (Hook.executeChild ⟨"/bin/hook", [], [], 0⟩
      { politeHook with course := { politeCourse with stdout := none, exit := none } }) = none := by
  have hnone : Hook.executeParent (Hook.executeChild ⟨"/bin/hook", [], [], 0⟩
      { politeHook with spawn := none }) = none := by decide
  refine ⟨fun h => ?_, hnone, by decide⟩
  obtain ⟨r, hr, -⟩ := (h ⟨"/bin/hook", [], [], 0⟩ { politeHook with spawn := none }).agent
  cases hnone.symm.trans hr

end KataAgent
