import KataAgent.ChildControl

namespace KataAgent
open Fallible
set_option autoImplicit true

/-- The control never gets back to the caller of `start`. -/
def Control.contained : Control → Prop
  | .exited _ => True
  | .execed => True
  | _ => False

/-- The instruction does what it is there for. -/
def Instr.passes (env : ChildEnv) (k : Nat) : Instr → Prop
  | .call c => c.outcome env k = .ok ()
  | .read _ _ => env.error k = none
  | .write _ _ => env.error k = none
  | .fork => env.error k = none
  | .defer _ => env.error k = none
  | .endScope => True
  | .hook _ _ => True
  | .exec args vars => execReady env args vars
  | .exit _ => False
  | .fail _ => False

/-- The instruction ends in an error that it hands on. -/
def Instr.errs (env : ChildEnv) (k : Nat) : Instr → Prop
  | .call c => ∃ e, c.outcome env k = .err e
  | .read _ _ => env.error k ≠ none
  | .write _ _ => env.error k ≠ none
  | .fork => env.error k ≠ none
  | .fail _ => True
  | _ => False

def Clean (env : ChildEnv) : Nat → List Instr → Prop
  | _, [] => True
  | k, i :: is => i.passes env k ∧ Clean env (k + 1) is

/-- The first instruction that does not pass ends in an error, not in a panic. -/
def ErrsFirst (env : ChildEnv) : Nat → List Instr → Prop
  | _, [] => False
  | k, i :: is => i.errs env k ∨ i.passes env k ∧ ErrsFirst env (k + 1) is

/-- A failure is an error inside `join_namespaces`, or there is none up to the `exec`. -/
def Confined (a : StartArgs) (join : List Instr) (env : ChildEnv) : Prop :=
  ErrsFirst env 0 join ∨ Clean env 0 join ∧ Clean env join.length (startAfterJoin a)

/-- An instruction without a scope and without an end of its own. -/
def Instr.plain : Instr → Prop
  | .call _ => True
  | .read _ _ => True
  | .write _ _ => True
  | .fork => True
  | .fail _ => True
  | _ => False

@[simp] theorem Instr.plain_call : (Instr.call c).plain := trivial

@[simp] theorem Instr.plain_read : (Instr.read c token).plain := trivial

@[simp] theorem Instr.plain_writeSync : (writeSync c token value).plain := trivial

@[simp] theorem Instr.plain_fork : Instr.fork.plain := trivial

@[simp] theorem Instr.plain_fail : (Instr.fail e).plain := trivial

variable {env : ChildEnv} {a : StartArgs} {is : List Instr}

theorem Instr.passes.not_errs {i : Instr} (h : i.passes env k) : ¬ i.errs env k := by
  cases i with
  | call c =>
    rintro ⟨e, he⟩
    have h : c.outcome env k = .ok () := h
    rw [h] at he
    cases he
  | read c token => exact fun he => he h
  | write c w => exact fun he => he h
  | fork => exact fun he => he h
  | fail e => exact h.elim
  | _ => exact id

theorem Clean.not_errsFirst (h : Clean env k is) : ¬ ErrsFirst env k is := by
  induction is generalizing k with
  | nil => exact id
  | cons i is ih =>
    rintro (he | ⟨-, he⟩)
    · exact h.1.not_errs he
    · exact ih h.2 he

/-- How a program without scopes ends: behind its last instruction, with an error, or unwound. -/
def ChildEnv.PlainEnd (env : ChildEnv) (k : Nat) (is : List Instr) : Prop :=
  env.run k none is = .falls ∧ Clean env k is ∨
    (∃ e, env.run k none is = .returned e) ∧ ErrsFirst env k is ∨
    env.run k none is = .unwound ∧ ¬ Clean env k is ∧ ¬ ErrsFirst env k is

theorem ChildEnv.PlainEnd.pass {i : Instr} (h : env.PlainEnd (k + 1) is) (hp : i.passes env k)
    (hr : env.run k none (i :: is) = env.run (k + 1) none is) : env.PlainEnd k (i :: is) := by
  rw [ChildEnv.PlainEnd, hr]
  rcases h with ⟨hf, hc⟩ | ⟨he, hc⟩ | ⟨hu, hc, hn⟩
  · exact .inl ⟨hf, hp, hc⟩
  · exact .inr (.inl ⟨he, .inr ⟨hp, hc⟩⟩)
  · refine .inr (.inr ⟨hu, fun hx => hc hx.2, ?_⟩)
    rintro (hx | hx)
    · exact hp.not_errs hx
    · exact hn hx.2

theorem ChildEnv.PlainEnd.err {i : Instr} (he : i.errs env k)
    (hr : env.run k none (i :: is) = .returned e) : env.PlainEnd k (i :: is) :=
  .inr (.inl ⟨⟨e, hr⟩, .inl he⟩)

theorem ChildEnv.PlainEnd.word {i : Instr} (h : env.PlainEnd (k + 1) is)
    (hi : i.passes env k ↔ env.error k = none) (he : i.errs env k ↔ env.error k ≠ none)
    (hr : env.run k none (i :: is) = match env.error k with
      | none => env.run (k + 1) none is
      | some e => .returned e) : env.PlainEnd k (i :: is) := by
  cases herr : env.error k with
  | none =>
    rw [herr] at hr
    exact h.pass (hi.2 herr) hr
  | some e =>
    rw [herr] at hr
    exact .err (he.2 (by rw [herr]; exact Option.some_ne_none e)) hr

theorem ChildEnv.PlainEnd.call {c : SysCall} (h : env.PlainEnd (k + 1) is) :
    env.PlainEnd k (.call c :: is) := by
  cases ho : c.outcome env k with
  | ok u => exact h.pass ho (by simp only [ChildEnv.run, ho])
  | err e =>
    have hr : env.run k none (.call c :: is) = .returned e := by
      simp only [ChildEnv.run, ho, ChildEnv.leave]
    exact .err ⟨e, ho⟩ hr
  | panic =>
    have hnp : ¬ (Instr.call c).passes env k := by
      intro hx
      have hx : c.outcome env k = .ok () := hx
      rw [ho] at hx
      cases hx
    refine .inr (.inr ⟨by simp only [ChildEnv.run, ho], fun hx => hnp hx.1, ?_⟩)
    rintro (⟨e, he⟩ | hx)
    · rw [ho] at he
      cases he
    · exact hnp hx.1

theorem run_plain (env : ChildEnv) (h : ∀ i ∈ is, i.plain) (k : Nat) :
    env.run k none is = .falls ∧ Clean env k is ∨
      (∃ e, env.run k none is = .returned e) ∧ ErrsFirst env k is ∨
      env.run k none is = .unwound ∧ ¬ Clean env k is ∧ ¬ ErrsFirst env k is := by
  induction is generalizing k with
  | nil => exact .inl ⟨rfl, trivial⟩
  | cons i is ih =>
    have ih := ih (fun j hj => h j (List.mem_cons_of_mem _ hj)) (k + 1)
    have hplain := h i List.mem_cons_self
    cases i with
    | call c => exact ChildEnv.PlainEnd.call ih
    | read c token => exact ChildEnv.PlainEnd.word ih Iff.rfl Iff.rfl rfl
    | write c w => exact ChildEnv.PlainEnd.word ih Iff.rfl Iff.rfl rfl
    | fork => exact ChildEnv.PlainEnd.word ih Iff.rfl Iff.rfl rfl
    | fail e => exact ChildEnv.PlainEnd.err trivial rfl
    | _ => exact hplain.elim

/-- Scopes open and close in turn, and all are closed at the end. -/
def bracketed : Bool → List Instr → Prop
  | b, [] => b = false
  | b, .defer _ :: is => b = false ∧ bracketed true is
  | b, .endScope :: is => b = true ∧ bracketed false is
  | b, i :: is => i.plain ∧ bracketed b is

theorem bracketed_append (h : ∀ i ∈ is, i.plain) :
    bracketed b (is ++ js) ↔ bracketed b js := by
  induction is with
  | nil => rfl
  | cons i is ih =>
    have ih := ih fun j hj => h j (List.mem_cons_of_mem _ hj)
    have hi := h i List.mem_cons_self
    cases i with
    | call c => exact (and_iff_right trivial).trans ih
    | read c token => exact (and_iff_right trivial).trans ih
    | write c w => exact (and_iff_right trivial).trans ih
    | fork => exact (and_iff_right trivial).trans ih
    | fail e => exact (and_iff_right trivial).trans ih
    | _ => exact hi.elim

theorem leave_not_contained (env : ChildEnv) (deferred : Option Nat) (e : ErrorKind) :
    ¬ (env.leave deferred (.returned e)).contained := by
  unfold ChildEnv.leave
  split
  · exact id
  · split
    · exact id
    · exact id

/-- The program ends inside the child exactly when the deferred call and the program succeed. -/
def ChildEnv.ContainedIffClean (env : ChildEnv) (k : Nat) (deferred : Option Nat)
    (program : List Instr) : Prop :=
  (env.run k deferred program).contained ↔
    (∀ j, deferred = some j → env.error j = none) ∧ Clean env k program

section
variable {env : ChildEnv} {k : Nat} {deferred : Option Nat} {i : Instr} {program : List Instr}

theorem ChildEnv.ContainedIffClean.pass (h : env.ContainedIffClean (k + 1) deferred program)
    (hi : i.passes env k)
    (hr : env.run k deferred (i :: program) = env.run (k + 1) deferred program) :
    env.ContainedIffClean k deferred (i :: program) := by
  rw [ChildEnv.ContainedIffClean, hr]
  exact h.trans (and_congr_right fun _ => (and_iff_right hi).symm)

theorem ChildEnv.ContainedIffClean.stop (hi : ¬ i.passes env k)
    (hr : ¬ (env.run k deferred (i :: program)).contained) :
    env.ContainedIffClean k deferred (i :: program) :=
  iff_of_false hr fun hc => hi hc.2.1

/-- An instruction that fails leaves the child with its error. -/
theorem ChildEnv.ContainedIffClean.word (h : env.ContainedIffClean (k + 1) deferred program)
    (hi : i.passes env k ↔ env.error k = none)
    (hr : env.run k deferred (i :: program) = match env.error k with
      | none => env.run (k + 1) deferred program
      | some e => env.leave deferred (.returned e)) :
    env.ContainedIffClean k deferred (i :: program) := by
  cases herr : env.error k with
  | none =>
    rw [herr] at hr
    exact h.pass (hi.2 herr) hr
  | some e =>
    rw [herr] at hr
    refine .stop ?_ ?_
    · intro hx
      rw [hi.1 hx] at herr
      cases herr
    · rw [hr]
      exact leave_not_contained env deferred e

theorem ChildEnv.ContainedIffClean.call {c : SysCall}
    (h : env.ContainedIffClean (k + 1) deferred program) :
    env.ContainedIffClean k deferred (.call c :: program) := by
  have hstop (hc : c.outcome env k ≠ .ok ()) : ¬ (Instr.call c).passes env k := hc
  cases ho : c.outcome env k with
  | ok u => exact h.pass ho (by simp only [ChildEnv.run, ho])
  | err e =>
    refine .stop (hstop (by rw [ho]; nofun)) ?_
    simp only [ChildEnv.run, ho]
    exact leave_not_contained env deferred e
  | panic =>
    refine .stop (hstop (by rw [ho]; nofun)) ?_
    simp only [ChildEnv.run, ho]
    exact id

theorem ChildEnv.ContainedIffClean.defer
    (h : env.ContainedIffClean (k + 1) (some k) program) :
    env.ContainedIffClean k none (.defer fd :: program) := by
  have hr : env.run k none (.defer fd :: program) = env.run (k + 1) (some k) program := rfl
  rw [ChildEnv.ContainedIffClean, hr]
  refine Iff.trans h ?_
  constructor
  · exact fun hc => ⟨nofun, hc.1 k rfl, hc.2⟩
  · rintro ⟨-, hk, hc⟩
    refine ⟨fun j hj => ?_, hc⟩
    cases hj
    exact hk

theorem ChildEnv.ContainedIffClean.endScope {j : Nat}
    (h : env.ContainedIffClean (k + 1) none program) :
    env.ContainedIffClean k (some j) (.endScope :: program) := by
  have hr : env.run k (some j) (.endScope :: program) =
      if (env.error j).isSome then .unwound else env.run (k + 1) none program := rfl
  rw [ChildEnv.ContainedIffClean, hr]
  cases herr : env.error j with
  | none =>
    rw [Option.isSome_none, if_neg Bool.false_ne_true]
    refine Iff.trans h ?_
    constructor
    · rintro ⟨-, hc⟩
      refine ⟨fun i hi => ?_, trivial, hc⟩
      cases hi
      exact herr
    · exact fun hc => ⟨nofun, hc.2.2⟩
  | some e =>
    rw [Option.isSome_some, if_pos rfl]
    refine iff_of_false id fun hc => ?_
    rw [hc.1 j rfl] at herr
    cases herr

end

/-- Past `join_namespaces` only the way to the `exec` ends inside the child. -/
theorem run_exec_contained_iff (env : ChildEnv) (args vars : List String)
    (h : bracketed deferred.isSome is) (k : Nat) :
    (env.run k deferred (is ++ [.exec args vars])).contained ↔
      (∀ j, deferred = some j → env.error j = none) ∧ Clean env k (is ++ [.exec args vars]) := by
  induction is generalizing k deferred with
  | nil =>
    have hd : deferred = none := by simpa [bracketed] using h
    subst hd
    simp only [List.nil_append, ChildEnv.run, Clean, Instr.passes, doExec]
    cases hready : execReady env args vars with
    | false => simp [Control.contained]
    | true =>
      cases env.error k with
      | none => simp [Control.contained]
      | some e => simp [Control.contained]
  | cons i is ih =>
    cases i with
    | call c => exact ChildEnv.ContainedIffClean.call (ih h.2 (k + 1))
    | read c token => exact ChildEnv.ContainedIffClean.word (ih h.2 (k + 1)) Iff.rfl rfl
    | write c w => exact ChildEnv.ContainedIffClean.word (ih h.2 (k + 1)) Iff.rfl rfl
    | fork => exact ChildEnv.ContainedIffClean.word (ih h.2 (k + 1)) Iff.rfl rfl
    | fail e => exact ChildEnv.ContainedIffClean.stop id (leave_not_contained env deferred e)
    | defer fd =>
      have hd : deferred = none := by simpa using h.1
      subst hd
      have hb : bracketed (some k).isSome is := h.2
      exact ChildEnv.ContainedIffClean.defer (ih hb (k + 1))
    | endScope =>
      obtain ⟨j, rfl⟩ := Option.isSome_iff_exists.1 h.1
      have hb : bracketed (none : Option Nat).isSome is := h.2
      exact ChildEnv.ContainedIffClean.endScope (ih hb (k + 1))
    | hook kind hk => exact h.1.elim
    | exit code => exact h.1.elim
    | exec args vars => exact h.1.elim

@[simp] theorem forall_mem_onlyIf {c : Prop} [Decidable c] {P : Instr → Prop} :
    (∀ i ∈ onlyIf c is, P i) ↔ (c → ∀ i ∈ is, P i) := by
  rw [onlyIf]
  split
  · rename_i hc
    simp [hc]
  · rename_i hc
    simp [hc]

/-- The instruction is plain, and no function called there panics. -/
def Instr.firm : Instr → Prop
  | .call c => c.mayUnwind = false
  | i => i.plain

theorem Instr.firm.plain {i : Instr} (h : i.firm) : i.plain := by
  cases i with
  | call c => exact trivial
  | _ => exact h

@[simp] theorem Instr.firm_call : (Instr.call c).firm ↔ c.mayUnwind = false := Iff.rfl

@[simp] theorem Instr.firm_read : (Instr.read c token).firm := trivial

@[simp] theorem Instr.firm_writeSync : (writeSync c token value).firm := trivial

@[simp] theorem Instr.firm_fork : Instr.fork.firm := trivial

@[simp] theorem Instr.firm_fail : (Instr.fail e).firm := trivial

theorem firm_setid (uid gid : Nat) : ∀ i ∈ setid uid gid, i.firm := by
  simp only [setid, List.flatten_cons, List.flatten_nil, List.append_nil, List.forall_mem_append,
    forall_mem_onlyIf]
  simp [SysCall.mayUnwind]

theorem firm_joinLoop (toJoin : List (CloneFlag × RawFd)) : ∀ i ∈ joinLoop toJoin, i.firm := by
  induction toJoin with
  | nil => exact nofun
  | cons p toJoin ih =>
    rw [joinLoop]
    split
    · exact ih
    · simp only [List.flatten_cons, List.flatten_nil, List.append_nil, List.forall_mem_append,
        forall_mem_onlyIf]
      refine ⟨?_, fun _ => firm_setid 0 0, ih⟩
      simp [SysCall.mayUnwind]

theorem firm_processLimits (process : Option OCIProcess) :
    ∀ i ∈ processLimits process, i.firm := by
  cases process with
  | none => simp [processLimits]
  | some p =>
    simp only [processLimits, List.forall_mem_append, forall_mem_onlyIf, List.forall_mem_map]
    simp [SysCall.mayUnwind]

theorem firm_joinNamespacesChild (a : StartArgs) : ∀ i ∈ joinNamespacesChild a, i.firm := by
  simp only [joinNamespacesChild, List.flatten_cons, List.flatten_nil, List.append_nil,
    List.forall_mem_append, forall_mem_onlyIf]
  refine ⟨?_, firm_processLimits a.process, fun _ => ?_, ?_, fun _ => firm_setid 0 0,
    firm_joinLoop a.toJoin, ?_⟩
  · simp [SysCall.mayUnwind]
  · simp [SysCall.mayUnwind]
  · simp
  · simp [SysCall.mayUnwind]

theorem plain_joinNamespacesContainer (a : StartArgs) :
    ∀ i ∈ joinNamespacesContainer a, i.plain := by
  have hm : ∀ i ∈ enterMountNamespace a.mountFd, i.plain := by
    cases a.mountFd with
    | none => exact nofun
    | some fd => simp [enterMountNamespace]
  simp only [joinNamespacesContainer, List.flatten_cons, List.flatten_nil, List.append_nil,
    List.forall_mem_append, forall_mem_onlyIf]
  simpa using hm

/-- The relay between the first child and the agent ends in an exit, whatever fails. -/
theorem run_firm_exit (env : ChildEnv) (h : ∀ i ∈ is, i.firm) (k : Nat) :
    env.run k none (is ++ [.exit 0]) = .exited 0 ∨
      ∃ e, env.run k none (is ++ [.exit 0]) = .returned e := by
  induction is generalizing k with
  | nil => exact .inl rfl
  | cons i is ih =>
    have ih := ih (fun j hj => h j (List.mem_cons_of_mem _ hj)) (k + 1)
    have hi := h i List.mem_cons_self
    have hword (hr : env.run k none (i :: is ++ [.exit 0]) = match env.error k with
        | none => env.run (k + 1) none (is ++ [.exit 0])
        | some e => .returned e) :
        env.run k none (i :: is ++ [.exit 0]) = .exited 0 ∨
          ∃ e, env.run k none (i :: is ++ [.exit 0]) = .returned e := by
      rw [hr]
      cases env.error k with
      | none => exact ih
      | some e => exact .inr ⟨e, rfl⟩
    cases i with
    | call c =>
      have hc : c.mayUnwind = false := hi
      have ho : c.outcome env k = .ok () ∨ ∃ e, c.outcome env k = .err e := by
        simp only [SysCall.outcome, hc, Bool.false_and, Bool.false_eq_true, if_false]
        cases env.error k with
        | none => exact .inl rfl
        | some e =>
          by_cases ht : c.tolerates e
          · exact .inl (if_pos ht)
          · exact .inr ⟨e, if_neg ht⟩
      rcases ho with ho | ⟨e, ho⟩
      · simp only [List.cons_append, ChildEnv.run, ho]
        exact ih
      · simp only [List.cons_append, ChildEnv.run, ho]
        exact .inr ⟨e, rfl⟩
    | read c token => exact hword rfl
    | write c w => exact hword rfl
    | fork => exact hword rfl
    | fail e => exact .inr ⟨e, rfl⟩
    | _ => exact hi.elim

theorem firstChild_contained (a : StartArgs) (pid : Int) (env : ChildEnv) (hn : a.pidns) :
    (firstChild a pid env).contained := by
  have hjoin : joinNamespacesChild a ++ joinNamespacesRelay pid =
      (joinNamespacesChild a ++ [.fork, .call (.close "chfd"), writeSync .pfd .pid pid,
        .read .crfd .pidAck, writeSync .chfd .handover 0]) ++ [.exit 0] := by
    simp [joinNamespacesRelay]
  have hfirm : ∀ i ∈ joinNamespacesChild a ++ [.fork, .call (.close "chfd"),
      writeSync .pfd .pid pid, .read .crfd .pidAck, writeSync .chfd .handover 0], i.firm := by
    rw [List.forall_mem_append]
    refine ⟨firm_joinNamespacesChild a, ?_⟩
    simp [SysCall.mayUnwind]
  simp only [firstChild, childControl, hn, if_true, hjoin]
  rcases run_firm_exit env hfirm 0 with hr | ⟨e, hr⟩
  · rw [hr]
    trivial
  · rw [hr]
    trivial

theorem bracketed_setupStdio (p : Process) (master slave : RawFd) (hjs : bracketed false js) :
    bracketed false (setupStdio p master slave ++ js) := by
  have hclose : ∀ i ∈ [Instr.call (.closeFd p.parentStdin), .call (.closeFd p.parentStdout),
      .call (.closeFd p.parentStderr)], i.plain := by simp
  rw [setupStdio]
  split
  · rename_i parentConsoleSocket consoleSocket _
    simp only [List.flatten_cons, List.flatten_nil, List.append_nil, List.append_assoc]
    refine ⟨trivial, rfl, ?_⟩
    have hbody : ∀ i ∈ [Instr.call (.sendmsg consoleSocket), .call (.closeFd consoleSocket),
        .call (.closeFd parentConsoleSocket), .call .setsid, .call (.ioctlCtty slave),
        .call (.dup2 slave 0), .call (.dup2 slave 1), .call (.dup2 slave 2)], i.plain := by
      simp
    have hslave : ∀ i ∈ onlyIf (slave > 2) [Instr.call (.closeFd slave)], i.plain := by
      simp
    apply (bracketed_append hbody).2
    apply (bracketed_append hslave).2
    exact ⟨rfl, (bracketed_append hclose).2 hjs⟩
  · have hbody : ∀ i ∈ List.flatten
        [[Instr.call (.dup2 p.stdin 0), .call (.dup2 p.stdout 1), .call (.dup2 p.stderr 2)],
          onlyIf (p.stdin > 2) [.call (.closeFd p.stdin)],
          onlyIf (p.stdout > 2) [.call (.closeFd p.stdout)],
          onlyIf (p.stderr > 2) [.call (.closeFd p.stderr)]], i.plain := by
      simp only [List.flatten_cons, List.flatten_nil, List.append_nil, List.forall_mem_append,
        forall_mem_onlyIf]
      simp
    rw [List.append_assoc]
    apply (bracketed_append hbody).2
    exact (bracketed_append hclose).2 hjs

theorem plain_setUser (user : Option User) : ∀ i ∈ setUser user, i.plain := by
  cases user with
  | none => exact nofun
  | some user =>
    simp only [setUser, List.forall_mem_append, forall_mem_onlyIf]
    refine ⟨fun i hi => (firm_setid user.uid user.gid i hi).plain, fun _ => ?_⟩
    simp

theorem plain_setCapabilities (caps : Option LinuxCapabilities) :
    ∀ i ∈ setCapabilities caps, i.plain := by
  cases caps with
  | none => exact nofun
  | some caps => simp [setCapabilities]

theorem startAfterJoin_eq (a : StartArgs) : ∃ is, bracketed false is ∧
    startAfterJoin a = is ++ [.exec a.p.oci.args a.p.oci.env] := by
  have hrest : ∀ i ∈ List.flatten
      [onlyIf (.newNs ∈ a.toNew) [.call .finishRootfs],
        onlyIf (a.p.oci.cwd ≠ "") [.call (.chdir a.p.oci.cwd)],
        setUser a.p.oci.user,
        onlyIf a.p.oci.noNewPrivileges [.call .setNoNewPrivileges],
        setCapabilities a.p.oci.capabilities,
        onlyIf a.p.init [writeSync .pfd .poststart 0],
        onlyIf a.p.init [.call .openFifo, .call (.closeFd a.fifofd), .call .readFifo]],
      i.plain := by
    simp only [List.flatten_cons, List.flatten_nil, List.append_nil, List.forall_mem_append,
      forall_mem_onlyIf]
    refine ⟨?_, ?_, plain_setUser _, ?_, plain_setCapabilities _, ?_, ?_⟩
    all_goals simp
  have hnil : bracketed false ([] : List Instr) := rfl
  refine ⟨setupStdio a.p a.master a.slave ++ _,
    bracketed_setupStdio _ _ _ ((bracketed_append hrest).2 hnil), ?_⟩
  simp [startAfterJoin, startSetup, startExec]

theorem childControl_contained_iff (a : StartArgs) (code : Int) (env : ChildEnv)
    (hjoin : ∀ i ∈ join, i.plain) :
    (childControl env code join (startAfterJoin a)).contained ↔ Confined a join env := by
  obtain ⟨is, hb, hstart⟩ := startAfterJoin_eq a
  unfold childControl Confined
  rcases run_plain env hjoin 0 with ⟨hr, hc⟩ | ⟨⟨e, hr⟩, hc⟩ | ⟨hr, hc, hn⟩
  · rw [hr, hstart]
    have hb : bracketed (none : Option Nat).isSome is := hb
    have hexec := run_exec_contained_iff env a.p.oci.args a.p.oci.env hb join.length
    constructor
    · exact fun hx => .inr ⟨hc, (hexec.1 hx).2⟩
    · rintro (hx | hx)
      · exact absurd hx hc.not_errsFirst
      · exact hexec.2 ⟨nofun, hx.2⟩
  · rw [hr]
    exact iff_of_true trivial (.inl hc)
  · rw [hr]
    refine iff_of_false id ?_
    rintro (hx | hx)
    · exact hn hx
    · exact hc hx.1

/-- The part of `join_namespaces` that the later container process runs. -/
def containerJoin (a : StartArgs) : List Instr :=
  if a.pidns then joinNamespacesContainer a
  else joinNamespacesChild a ++ joinNamespacesContainer a

theorem plain_containerJoin (a : StartArgs) : ∀ i ∈ containerJoin a, i.plain := by
  rw [containerJoin]
  split
  · exact plain_joinNamespacesContainer a
  · rw [List.forall_mem_append]
    exact ⟨fun i hi => (firm_joinNamespacesChild a i hi).plain, plain_joinNamespacesContainer a⟩

/-- No child hands its control back exactly when the one that becomes the container fails in
`join_namespaces`, with an error, or not at all before its `exec`. -/
theorem start_children_contained_iff (a : StartArgs) (pid : Int) (first second : ChildEnv) :
    ((firstChild a pid first).contained ∧ (a.pidns → (secondChild a second).contained)) ↔
      Confined a (containerJoin a) (if a.pidns then second else first) := by
  have hplain := plain_containerJoin a
  cases hn : a.pidns with
  | true =>
    have hjoin : containerJoin a = joinNamespacesContainer a := by simp [containerJoin, hn]
    rw [hjoin] at hplain ⊢
    have hsecond := childControl_contained_iff a (-2) second hplain
    constructor
    · exact fun h => hsecond.1 (h.2 rfl)
    · exact fun h => ⟨firstChild_contained a pid first hn, fun _ => hsecond.2 h⟩
  | false =>
    have hjoin : containerJoin a = joinNamespacesChild a ++ joinNamespacesContainer a := by
      simp [containerJoin, hn]
    rw [hjoin] at hplain ⊢
    have hfirst := childControl_contained_iff a (-1) first hplain
    have he : firstChild a pid first =
        childControl first (-1) (joinNamespacesChild a ++ joinNamespacesContainer a)
          (startAfterJoin a) := by
      simp [firstChild, hn]
    rw [he]
    constructor
    · exact fun h => hfirst.1 h.1
    · exact fun h => ⟨hfirst.2 h, nofun⟩

def execProcess (args : List String) (cwd : String) : OCIProcess where
  terminal := false
  user := none
  args := args
  env := ["PATH=/bin"]
  cwd := cwd
  capabilities := none
  rlimits := []
  noNewPrivileges := false
  oomScoreAdj := 0

/-- An exec into a container that shares all namespaces of the agent. -/
def execStart (args : List String) (cwd : String) : StartArgs where
  p := ⟨"exec", 10, 13, 15, 11, 12, 14, none, false, execProcess args cwd⟩
  process := some (execProcess args cwd)
  root := ⟨"/run/rootfs", false⟩
  hostname := "pod"
  hooks := none
  linux := ⟨[], [], [], none, [], []⟩
  toNew := ∅
  toJoin := []
  pidns := false
  userns := false
  noPivot := false
  fifofd := 9
  master := 20
  slave := 21

/-- All calls succeed but the one at position `k`. -/
def failingAt (k : Nat) : ChildEnv where
  error j := if j = k then some (.nix .ENOENT) else none
  unwinds _ := false
  vars := some []

/-- A working directory that does not exist sends the child back into the agent's code. -/
theorem start_child_returns :
    ¬ ∀ a pid first second, (firstChild a pid first).contained ∧
      (a.pidns → (secondChild a second).contained) := by
  intro h
  have hcwd : firstChild (execStart ["ls"] "/missing") 0 (failingAt 19) =
      .returned (.nix .ENOENT) := by decide
  have hc := (h (execStart ["ls"] "/missing") 0 (failingAt 19) (failingAt 19)).1
  rw [hcwd] at hc
  exact hc

end KataAgent
