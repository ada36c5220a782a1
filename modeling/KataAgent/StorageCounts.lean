import KataAgent.StorageReferences

namespace KataAgent
open Fallible Transition
set_option autoImplicit true

/-- A call for a storage, with what the guest answers to it. -/
inductive StorageCall where
  | set (path : String)
  | unsetAndRemove (path : String) (refused : Option Errno) (removeDir : Option ErrorKind)

structure StorageRun where
  agent : Agent
  /-- The sets of each path less its unsets, since it was last absent. -/
  users : String → Nat
  /-- The calls that returned another flag than the documented one. -/
  wrong : List StorageCall

variable {s t : StorageRun} {sb : Sandbox} {path p : String}

/-- The flag is to say that the storage is new. -/
def StorageRun.set (s : StorageRun) (path : String) : StorageRun :=
  let r := s.agent.sandbox.setSandboxStorage path
  { agent := s.agent.setSandbox r.2
    users := Function.update s.users path (s.users path + 1)
    wrong := if r.1 = decide (path ∉ s.agent.sandbox.storages) then s.wrong
      else s.wrong ++ [.set path] }

/-- The flag is to say that the last of its users left the storage. -/
def StorageRun.unsetAndRemove (s : StorageRun) (path : String) (refused : Option Errno)
    (removeDir : Option ErrorKind) : StorageRun where
  agent := (unsetAndRemoveSandboxStorage refused removeDir path s.agent).2
  users := Function.update s.users path (s.users path - 1)
  wrong := if (s.agent.sandbox.unsetSandboxStorage path).1 = decide (s.users path = 1) then s.wrong
    else s.wrong ++ [.unsetAndRemove path refused removeDir]

/-- The calls one after the other, from a sandbox without storages. -/
def storageCalls : System StorageRun StorageCall where
  init s := s.agent.sandbox.storages = ∅ ∧ s.users = (fun _ => 0) ∧ s.wrong = []
  step s
    | .set path => some (s.set path)
    | .unsetAndRemove path refused removeDir => some (s.unsetAndRemove path refused removeDir)

/-- The counters are those of the users, and all flags were the documented ones. -/
structure StorageRun.Counted (s : StorageRun) : Prop where
  positive : ∀ p count, s.agent.sandbox.storages.lookup p = some count → 1 ≤ count.toNat
  balance : ∀ p, s.agent.sandbox.refs p = s.users p
  flags : s.wrong = []

/-- A set does not exceed the counter, and an unset finds no more than one user. -/
def SingleUser (s : StorageRun) : StorageCall → Prop
  | .set path => s.agent.sandbox.storages.lookup path ≠ some (2 ^ 32 - 1)
  | .unsetAndRemove path _ _ =>
    ∀ count, s.agent.sandbox.storages.lookup path = some count → count = 1

theorem unsetAndRemove_sandbox (refused : Option Errno) (removeDir : Option ErrorKind) :
    (s.unsetAndRemove path refused removeDir).agent.sandbox =
      (s.agent.sandbox.unsetSandboxStorage path).2 := by
  obtain ⟨o, u, hr, -, hs, -⟩ := unsetAndRemoveSandboxStorage_apply refused removeDir path s.agent
  rw [StorageRun.unsetAndRemove, hr]
  exact hs

theorem Sandbox.setSandboxStorage_fst :
    (sb.setSandboxStorage path).1 = decide (path ∉ sb.storages) := by
  rw [Sandbox.setSandboxStorage]
  cases hl : sb.storages.lookup path with
  | none => exact (decide_eq_true (Table.notMem_iff.2 hl)).symm
  | some count =>
    have hm : path ∈ sb.storages := Finmap.mem_iff.2 ⟨count, hl⟩
    exact (decide_eq_false (not_not.2 hm)).symm

/-- The storage of a single user goes with it. -/
theorem Sandbox.unsetSandboxStorage_single (h : ∀ count, sb.storages.lookup path = some count →
    count = 1) : (sb.unsetSandboxStorage path).1 = decide (sb.refs path = 1) ∧
      ∀ p, (sb.unsetSandboxStorage path).2.storages.lookup p =
        if p = path then none else sb.storages.lookup p := by
  rw [Sandbox.unsetSandboxStorage, Sandbox.refs]
  cases hl : sb.storages.lookup path with
  | none =>
    refine ⟨rfl, fun p => ?_⟩
    by_cases hp : p = path
    · rw [if_pos hp, hp]
      exact hl
    · rw [if_neg hp]
  | some count =>
    cases h count hl
    exact ⟨rfl, fun p => Table.lookup_erase _ _ _⟩

theorem StorageRun.Counted.set (h : s.Counted) (hc : SingleUser s (.set path)) :
    (s.set path).Counted := by
  constructor
  · intro p count hl
    change (s.agent.sandbox.setSandboxStorage path).2.storages.lookup p = some count at hl
    by_cases hp : p = path
    · have hrefs := Sandbox.refs_setSandboxStorage hc p
      have hcount : (s.agent.sandbox.setSandboxStorage path).2.refs p = count.toNat := by
        rw [Sandbox.refs, hl]
        rfl
      rw [hcount, if_pos hp] at hrefs
      omega
    · rw [Sandbox.lookup_setSandboxStorage, if_neg hp] at hl
      exact h.positive p count hl
  · intro p
    change (s.agent.sandbox.setSandboxStorage path).2.refs p = Function.update s.users path _ p
    rw [Sandbox.refs_setSandboxStorage hc, h.balance, Function.update_apply]
    split
    · rename_i hp
      rw [hp]
    · rfl
  · change (if (s.agent.sandbox.setSandboxStorage path).1 = _ then s.wrong else _) = []
    rw [if_pos Sandbox.setSandboxStorage_fst, h.flags]

theorem StorageRun.Counted.unsetAndRemove {refused : Option Errno} {removeDir : Option ErrorKind}
    (h : s.Counted) (hc : SingleUser s (.unsetAndRemove path refused removeDir)) :
    (s.unsetAndRemove path refused removeDir).Counted := by
  obtain ⟨hflag, hlookup⟩ := Sandbox.unsetSandboxStorage_single hc
  constructor
  · intro p count hl
    rw [unsetAndRemove_sandbox, hlookup] at hl
    split at hl
    · cases hl
    · exact h.positive p count hl
  · intro p
    have husers : (s.unsetAndRemove path refused removeDir).users p =
        if p = path then s.users path - 1 else s.users p := Function.update_apply _ _ _ _
    rw [unsetAndRemove_sandbox, husers, Sandbox.refs, hlookup]
    split
    · have hone : s.agent.sandbox.refs path ≤ 1 := by
        rw [Sandbox.refs]
        cases hl : s.agent.sandbox.storages.lookup path with
        | none => exact Nat.zero_le 1
        | some count =>
          cases hc count hl
          exact Nat.le_refl 1
      rw [h.balance] at hone
      exact (Nat.sub_eq_zero_of_le hone).symm
    · exact h.balance p
  · change (if (s.agent.sandbox.unsetSandboxStorage path).1 = _ then s.wrong else _) = []
    rw [if_pos (hflag.trans (by rw [h.balance])), h.flags]

/-- As long as a storage has a single user when it is unset, and its counter does not overflow, the
counters are those of the users, and the flags are the documented ones. -/
theorem storageCalls_counted (h : storageCalls.Reach SingleUser s) : s.Counted := by
  apply h.invariant
  · rintro s ⟨hs, hu, hw⟩
    constructor
    · intro p count hl
      rw [hs] at hl
      cases hl
    · intro p
      rw [Sandbox.refs, hs, hu]
      rfl
    · exact hw
  · intro s call t hi hc hs
    cases call with
    | set path =>
      cases hs
      exact hi.set hc
    | unsetAndRemove path refused removeDir =>
      cases hs
      exact hi.unsetAndRemove hc

def noStorages : StorageRun := ⟨emptySandbox.agent, fun _ => 0, []⟩

theorem noStorages_reach (C : StorageRun → StorageCall → Prop) : storageCalls.Reach C noStorages :=
  .init ⟨rfl, rfl, rfl⟩

/-- One storage is used twice, and another one comes and goes. -/
theorem storageCalls_counted_two :
    ((((noStorages.set "/a").set "/b").set "/a").unsetAndRemove "/b" none none).Counted := by
  have ha := System.Reach.step (noStorages_reach SingleUser)
    (a := .set "/a") (t := noStorages.set "/a") (by change _ ≠ _; decide) rfl
  have hb := ha.step (a := .set "/b") (t := (noStorages.set "/a").set "/b")
    (by change _ ≠ _; decide) rfl
  have haa := hb.step (a := .set "/a") (t := ((noStorages.set "/a").set "/b").set "/a")
    (by change _ ≠ _; decide) rfl
  have hl : (((noStorages.set "/a").set "/b").set "/a").agent.sandbox.storages.lookup "/b" =
      some 1 := by decide
  apply storageCalls_counted (haa.step (a := .unsetAndRemove "/b" none none) ?_ rfl)
  intro count hc
  exact (Option.some.inj (hl.symm.trans hc)).symm

/-- The first of two users that leaves a storage is told that it was the last. -/
theorem storageCalls_miscounted : ¬ ∀ s, storageCalls.Reachable s → s.Counted := by
  intro h
  have hr : storageCalls.Reachable
      (((noStorages.set "/a").set "/a").unsetAndRemove "/a" none none) :=
    (((noStorages_reach _).step (a := .set "/a") trivial rfl).step (a := .set "/a") trivial
      rfl).step (a := .unsetAndRemove "/a" none none) trivial rfl
  have hw : (((noStorages.set "/a").set "/a").unsetAndRemove "/a" none none).wrong.length = 1 := by
    decide
  rw [(h _ hr).flags] at hw
  cases hw

end KataAgent
