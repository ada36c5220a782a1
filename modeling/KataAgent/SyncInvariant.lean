import KataAgent.SyncProtocol

namespace KataAgent
open Fallible Transition
set_option autoImplicit true

/-- The order of the protocol; a local call has no place in it. -/
def SyncToken.rank : SyncToken → Nat
  | .setup => 0
  | .resume => 1
  | .pid => 3
  | .pidAck => 4
  | .handover => 5
  | .prestart => 6
  | .prestartDone => 8
  | .poststart => 9

def Instr.rank : Instr → Option Nat
  | .read _ token => some token.rank
  | .write _ w => some w.token.rank
  | .fork => some 2
  | .hook .prestart _ => some 7
  | .hook .poststart _ => some 10
  | .exit _ => some 11
  | .fail _ => some 11
  | .exec _ _ => some 11
  | _ => none

def rankLe (m n : Nat) : Prop := m < n ∨ m = n ∧ (m = 7 ∨ m = 10)

/-- The instructions that have a place in the protocol. -/
def ranked (is : List Instr) : List Instr := is.filter fun i => i.rank.isSome

@[simp] theorem ranked_append (is js : List Instr) : ranked (is ++ js) = ranked is ++ ranked js :=
  List.filter_append _ _

@[simp] theorem ranked_flatten (iss : List (List Instr)) :
    ranked iss.flatten = (iss.map ranked).flatten :=
  List.filter_flatten

@[simp] theorem ranked_onlyIf (c : Prop) [Decidable c] (is : List Instr) :
    ranked (onlyIf c is) = onlyIf c (ranked is) := by
  unfold onlyIf
  split
  · rfl
  · rfl

@[simp] theorem onlyIf_nil (c : Prop) [Decidable c] : onlyIf c ([] : List α) = [] := by
  rw [onlyIf]
  split
  · rfl
  · rfl

theorem ranked_eq_nil (h : ∀ i ∈ is, i.rank = none) : ranked is = [] := by
  apply List.filter_eq_nil_iff.2
  intro i hi
  simp [h i hi]

theorem ranked_eq_self (h : ∀ i ∈ is, i.rank ≠ none) : ranked is = is := by
  apply List.filter_eq_self.2
  intro i hi
  exact Option.isSome_iff_ne_none.2 (h i hi)

@[simp] theorem ranked_nil : ranked [] = [] := rfl

@[simp] theorem ranked_call : ranked (.call c :: is) = ranked is := rfl

@[simp] theorem ranked_defer : ranked (.defer fd :: is) = ranked is := rfl

@[simp] theorem ranked_endScope : ranked (.endScope :: is) = ranked is := rfl

@[simp] theorem ranked_exit : ranked (.exit code :: is) = .exit code :: ranked is := rfl

@[simp] theorem ranked_fork : ranked (.fork :: is) = .fork :: ranked is := rfl

@[simp] theorem ranked_read : ranked (.read c token :: is) = .read c token :: ranked is := rfl

@[simp] theorem ranked_writeSync :
    ranked (writeSync c token value :: is) = writeSync c token value :: ranked is := rfl

@[simp] theorem ranked_setid (uid gid : Nat) : ranked (setid uid gid) = [] := by
  simp [setid]

@[simp] theorem ranked_hooks (hooks : Option Hooks) (kind : HookKind) :
    ranked (Hooks.run hooks kind) = Hooks.run hooks kind := by
  apply ranked_eq_self
  intro i hi
  cases hooks with
  | none => cases hi
  | some hooks =>
    cases kind with
    | prestart =>
      obtain ⟨h, _, rfl⟩ := List.mem_map.1 hi
      exact Option.some_ne_none _
    | poststart =>
      obtain ⟨h, _, rfl⟩ := List.mem_map.1 hi
      exact Option.some_ne_none _

@[simp] theorem ranked_joinLoop (toJoin : List (CloneFlag × RawFd)) :
    ranked (joinLoop toJoin) = [] := by
  induction toJoin with
  | nil => rfl
  | cons p toJoin ih =>
    rw [joinLoop]
    split
    · exact ih
    · simp [ih]

theorem ranked_processLimits (p : OCIProcess) : ranked (processLimits (some p)) = [] := by
  apply ranked_eq_nil
  intro i hi
  simp only [processLimits, onlyIf, List.mem_append, List.mem_map] at hi
  rcases hi with hi | ⟨rl, _, rfl⟩
  · split at hi
    · rw [List.mem_singleton.1 hi]
      rfl
    · cases hi
  · rfl

@[simp] theorem ranked_enterMountNamespace (fd : Option RawFd) :
    ranked (enterMountNamespace fd) = [] := by
  cases fd <;> rfl

@[simp] theorem ranked_setupStdio (p : Process) (master slave : RawFd) :
    ranked (setupStdio p master slave) = [] := by
  rw [setupStdio]
  split
  · simp
  · simp

@[simp] theorem ranked_setUser (user : Option User) : ranked (setUser user) = [] := by
  cases user with
  | none => rfl
  | some user =>
    simp [setUser]

@[simp] theorem ranked_setCapabilities (caps : Option LinuxCapabilities) :
    ranked (setCapabilities caps) = [] := by
  cases caps <;> rfl

theorem ranked_agentProgram (r : SyncRun) : ranked r.agentProgram = List.flatten
    [[.read .pfd .setup, writeSync .crfd .resume 0],
      onlyIf r.args.pidns [.read .pfd .pid, writeSync .crfd .pidAck 0],
      onlyIf r.args.p.init [.read .pfd .prestart],
      onlyIf r.args.p.init (Hooks.run r.args.hooks .prestart),
      onlyIf r.args.p.init [writeSync .crfd .prestartDone 0, .read .pfd .poststart],
      onlyIf r.args.p.init (Hooks.run r.args.hooks .poststart)] := by
  simp [SyncRun.agentProgram, joinNamespacesParent]

/-- The container process, without and with a pid namespace of its own. -/
def containerRanked (r : SyncRun) : List Instr := List.flatten
  [onlyIf r.args.pidns [.read .chfd .handover],
    onlyIf r.args.p.init [writeSync .pfd .prestart 0, .read .crfd .prestartDone,
      writeSync .pfd .poststart 0]]

theorem ranked_container (r : SyncRun) :
    ranked (joinNamespacesContainer r.args ++ startSetup r.args) = containerRanked r := by
  simp [joinNamespacesContainer, startSetup, containerRanked]
  unfold onlyIf
  split
  · rfl
  · rfl

theorem ranked_firstProgram (r : SyncRun) (hp : r.args.process = some p) :
    ranked r.firstProgram = writeSync .pfd .setup 0 :: .read .crfd .resume ::
      if r.args.pidns then
        [.fork, writeSync .pfd .pid r.secondPid, .read .crfd .pidAck,
          writeSync .chfd .handover 0, .exit 0]
      else containerRanked r := by
  have hj : ranked (joinNamespacesChild r.args) =
      [writeSync .pfd .setup 0, .read .crfd .resume] := by
    simp [joinNamespacesChild, hp, ranked_processLimits]
  rw [SyncRun.firstProgram]
  rw [ranked_append, hj]
  split
  · rfl
  · rw [ranked_container]
    rfl

theorem ranked_secondProgram (r : SyncRun) :
    ranked r.secondProgram = onlyIf r.args.pidns (containerRanked r) := by
  rw [SyncRun.secondProgram]
  rw [ranked_onlyIf, ranked_container]

theorem SyncToken.rank_le (token : SyncToken) : token.rank ≤ 9 := by
  cases token <;> decide

theorem Instr.rank_le {i : Instr} (h : i.rank = some n) : n ≤ 11 := by
  cases i with
  | read c token =>
    cases h
    exact token.rank_le.trans (by decide)
  | write c w =>
    cases h
    exact w.token.rank_le.trans (by decide)
  | hook kind hk => cases kind <;> cases h <;> decide
  | fork =>
    cases h
    decide
  | exit code =>
    cases h
    decide
  | fail e =>
    cases h
    decide
  | exec args env =>
    cases h
    decide
  | _ => cases h

/-- The instruction `x` may stand before `y` in a program. -/
def Before (x y : Instr) : Prop :=
  ∀ m, x.rank = some m → ∀ n, y.rank = some n → rankLe m n

theorem pairwise_before_iff :
    is.Pairwise Before ↔ ((ranked is).filterMap Instr.rank).Pairwise rankLe := by
  rw [List.pairwise_filterMap, ranked, List.pairwise_filter]
  constructor
  · exact fun h => h.imp fun hxy _ _ => hxy
  · intro h
    refine h.imp fun hxy m hm n hn => ?_
    exact hxy (by simp [hm]) (by simp [hn]) m hm n hn

def HookKind.rank : HookKind → Nat
  | .prestart => 7
  | .poststart => 10

theorem rank_hooks (hooks : Option Hooks) (kind : HookKind) :
    ∃ n, (Hooks.run hooks kind).filterMap Instr.rank = List.replicate n kind.rank := by
  have hmap (hs : List Hook) :
      (hs.map (.hook kind)).filterMap Instr.rank = List.replicate hs.length kind.rank := by
    induction hs with
    | nil => rfl
    | cons h hs ih =>
      rw [List.map_cons, List.length_cons, List.replicate_succ, ← ih]
      cases kind <;> rfl
  cases hooks with
  | none => exact ⟨0, rfl⟩
  | some hooks =>
    cases kind with
    | prestart => exact ⟨_, hmap hooks.prestart⟩
    | poststart => exact ⟨_, hmap hooks.poststart⟩

theorem agentProgram_pairwise (r : SyncRun) : r.agentProgram.Pairwise Before := by
  rw [pairwise_before_iff, ranked_agentProgram]
  obtain ⟨m, hm⟩ := rank_hooks r.args.hooks .prestart
  obtain ⟨n, hn⟩ := rank_hooks r.args.hooks .poststart
  cases r.args.pidns <;> cases r.args.p.init <;>
    simp [onlyIf, hm, hn, Instr.rank, writeSync, SyncToken.rank, HookKind.rank, rankLe,
      List.pairwise_append, List.pairwise_replicate] <;>
    grind

theorem firstProgram_pairwise (r : SyncRun) (hp : r.args.process = some p) :
    r.firstProgram.Pairwise Before := by
  rw [pairwise_before_iff, ranked_firstProgram r hp]
  cases h : r.args.pidns <;> cases hi : r.args.p.init <;>
    simp [containerRanked, h, hi, onlyIf, Instr.rank, writeSync, SyncToken.rank, rankLe]

theorem secondProgram_pairwise (r : SyncRun) : r.secondProgram.Pairwise Before := by
  rw [pairwise_before_iff, ranked_secondProgram]
  cases h : r.args.pidns <;> cases hi : r.args.p.init <;>
    simp [containerRanked, h, hi, onlyIf, Instr.rank, writeSync, SyncToken.rank, rankLe]

/-- An instruction that belongs after one still to come is still to come. -/
theorem mem_of_suffix {x y : Instr} (hp : is.Pairwise Before) (ht : js <:+ is) (hx : x ∈ js)
    (hy : y ∈ is) (hm : x.rank = some m) (hn : y.rank = some n) (hmn : m < n) : y ∈ js := by
  obtain ⟨pre, rfl⟩ := ht
  rcases List.mem_append.1 hy with hy | hy
  · have hb := (List.pairwise_append.1 hp).2.2 y hy x hx n hn m hm
    rcases hb with hb | hb
    · omega
    · omega
  · exact hy

/-- What comes after the next instruction has a later place. -/
theorem before_of_suffix {x y : Instr} (hp : is.Pairwise Before) (ht : x :: js <:+ is)
    (hy : y ∈ js) : Before x y := by
  obtain ⟨pre, rfl⟩ := ht
  exact (List.pairwise_cons.1 (List.pairwise_append.1 hp).2.1).1 y hy

theorem mem_ranked {i : Instr} (h : i ∈ is) (hr : i.rank = some n) : i ∈ ranked is :=
  List.mem_filter.2 ⟨h, by rw [hr]; rfl⟩

def writes (c : Pipe) (is : List Instr) : List SyncWord :=
  is.filterMap fun i => match i with
    | .write d w => if d = c then some w else none
    | _ => none

def reads (c : Pipe) (is : List Instr) : List SyncToken :=
  is.filterMap fun i => match i with
    | .read d token => if d = c then some token else none
    | _ => none

@[simp] theorem writes_nil : writes c [] = [] := rfl

@[simp] theorem writes_write : writes c (.write d w :: is) =
    if d = c then w :: writes c is else writes c is := by
  by_cases h : d = c
  · simp [writes, h]
  · simp [writes, h]

@[simp] theorem writes_read : writes c (.read d token :: is) = writes c is := rfl

@[simp] theorem writes_fork : writes c (.fork :: is) = writes c is := rfl

@[simp] theorem writes_exit : writes c (.exit code :: is) = writes c is := rfl

@[simp] theorem writes_append (is js : List Instr) :
    writes c (is ++ js) = writes c is ++ writes c js := List.filterMap_append

@[simp] theorem reads_nil : reads c [] = [] := rfl

@[simp] theorem reads_read : reads c (.read d token :: is) =
    if d = c then token :: reads c is else reads c is := by
  by_cases h : d = c
  · simp [reads, h]
  · simp [reads, h]

@[simp] theorem reads_write : reads c (.write d w :: is) = reads c is := rfl

@[simp] theorem reads_fork : reads c (.fork :: is) = reads c is := rfl

@[simp] theorem reads_exit : reads c (.exit code :: is) = reads c is := rfl

@[simp] theorem reads_append (is js : List Instr) :
    reads c (is ++ js) = reads c is ++ reads c js := List.filterMap_append

theorem mem_writes : w ∈ writes c is ↔ .write c w ∈ is := by
  simp only [writes, List.mem_filterMap]
  constructor
  · rintro ⟨i, hi, h⟩
    cases i with
    | write d v =>
      by_cases hd : d = c
      · simp only [hd, if_true, Option.some.injEq] at h
        rwa [← hd, ← h] at *
      · simp [hd] at h
    | _ => cases h
  · exact fun h => ⟨_, h, by simp⟩

theorem mem_reads : token ∈ reads c is ↔ .read c token ∈ is := by
  simp only [reads, List.mem_filterMap]
  constructor
  · rintro ⟨i, hi, h⟩
    cases i with
    | read d v =>
      by_cases hd : d = c
      · simp only [hd, if_true, Option.some.injEq] at h
        rwa [← hd, ← h] at *
      · simp [hd] at h
    | _ => cases h
  · exact fun h => ⟨_, h, by simp⟩

theorem writes_ranked (c : Pipe) (is : List Instr) : writes c (ranked is) = writes c is := by
  induction is with
  | nil => rfl
  | cons i is ih =>
    cases i with
    | hook kind h => cases kind <;> exact ih
    | write d w =>
      have hr : ranked (.write d w :: is) = .write d w :: ranked is := rfl
      rw [hr, writes_write, writes_write, ih]
    | _ => exact ih

theorem reads_ranked (c : Pipe) (is : List Instr) : reads c (ranked is) = reads c is := by
  induction is with
  | nil => rfl
  | cons i is ih =>
    cases i with
    | hook kind h => cases kind <;> exact ih
    | read d token =>
      have hr : ranked (.read d token :: is) = .read d token :: ranked is := rfl
      rw [hr, reads_read, reads_read, ih]
    | _ => exact ih

theorem mem_hooks {i : Instr} (h : i ∈ Hooks.run hooks kind) : ∃ hk, i = .hook kind hk := by
  cases hooks with
  | none => cases h
  | some hooks =>
    cases kind with
    | prestart =>
      obtain ⟨hk, _, rfl⟩ := List.mem_map.1 h
      exact ⟨hk, rfl⟩
    | poststart =>
      obtain ⟨hk, _, rfl⟩ := List.mem_map.1 h
      exact ⟨hk, rfl⟩

@[simp] theorem writes_hooks (c : Pipe) (hooks : Option Hooks) (kind : HookKind) :
    writes c (Hooks.run hooks kind) = [] := by
  apply List.eq_nil_iff_forall_not_mem.2
  intro w hw
  obtain ⟨hk, he⟩ := mem_hooks (mem_writes.1 hw)
  cases he

@[simp] theorem reads_hooks (c : Pipe) (hooks : Option Hooks) (kind : HookKind) :
    reads c (Hooks.run hooks kind) = [] := by
  apply List.eq_nil_iff_forall_not_mem.2
  intro token ht
  obtain ⟨hk, he⟩ := mem_hooks (mem_reads.1 ht)
  cases he

/-- The instruction neither touches a pipe nor starts or ends a process. -/
def Instr.silent : Instr → Prop
  | .call _ => True
  | .hook _ _ => True
  | .defer _ => True
  | .endScope => True
  | _ => False

theorem Instr.silent.writes {i : Instr} (h : i.silent) :
    writes c (i :: is) = KataAgent.writes c is := by
  cases i with
  | call _ => rfl
  | hook _ _ => rfl
  | defer _ => rfl
  | endScope => rfl
  | _ => exact h.elim

theorem Instr.silent.reads {i : Instr} (h : i.silent) :
    reads c (i :: is) = KataAgent.reads c is := by
  cases i with
  | call _ => rfl
  | hook _ _ => rfl
  | defer _ => rfl
  | endScope => rfl
  | _ => exact h.elim

variable {r : SyncRun} {s t : SyncState}

/-- All that one step can do. -/
theorem SyncState.step_cases (h : s.step p = some t) :
    s.present p ∧ ∃ i rest, s.program p = i :: rest ∧
      ((∃ c token w ws, i = .read c token ∧ s.pipe c = w :: ws ∧
          t = ((s.advance p rest).setPipe c ws).receive p token w) ∨
        (∃ c w, i = .write c w ∧ t = (s.advance p rest).setPipe c (s.pipe c ++ [w])) ∨
        (i = .fork ∧ t = { s.advance p rest with forked := true }) ∨
        (∃ code, i = .exit code ∧ t = s.advance p []) ∨
        (i.silent ∧ t = s.advance p rest)) := by
  simp only [SyncState.step] at h
  split at h
  · rename_i hp
    refine ⟨hp, ?_⟩
    split at h
    · cases h
    · rename_i c token rest hprog
      split at h
      · cases h
      · rename_i w ws hw
        cases h
        exact ⟨_, _, hprog, .inl ⟨c, token, w, ws, rfl, hw, rfl⟩⟩
    · rename_i c w rest hprog
      cases h
      exact ⟨_, _, hprog, .inr (.inl ⟨c, w, rfl, rfl⟩)⟩
    · rename_i rest hprog
      cases h
      exact ⟨_, _, hprog, .inr (.inr (.inl ⟨rfl, rfl⟩))⟩
    · rename_i code rest hprog
      cases h
      exact ⟨_, _, hprog, .inr (.inr (.inr (.inl ⟨code, rfl, rfl⟩)))⟩
    · cases h
    · cases h
    · rename_i rest hprog
      cases h
      exact ⟨_, _, hprog, .inr (.inr (.inr (.inr ⟨trivial, rfl⟩)))⟩
    · rename_i rest hprog
      cases h
      exact ⟨_, _, hprog, .inr (.inr (.inr (.inr ⟨trivial, rfl⟩)))⟩
    · rename_i rest hprog
      cases h
      exact ⟨_, _, hprog, .inr (.inr (.inr (.inr ⟨trivial, rfl⟩)))⟩
    · rename_i rest hprog
      cases h
      exact ⟨_, _, hprog, .inr (.inr (.inr (.inr ⟨trivial, rfl⟩)))⟩
  · cases h

/-- What is on a pipe, then what is still to be written to it, is what is still to be read. -/
structure SyncState.Sound (r : SyncRun) (s : SyncState) : Prop where
  agent : s.agent <:+ r.agentProgram
  first : s.first <:+ r.firstProgram
  second : s.second <:+ r.secondProgram
  pfd : s.pipe .pfd ++ writes .pfd s.first ++ writes .pfd s.second =
    (reads .pfd s.agent).map r.word
  crfd : s.pipe .crfd ++ writes .crfd s.agent =
    (reads .crfd s.first ++ reads .crfd s.second).map r.word
  chfd : s.pipe .chfd ++ writes .chfd s.first = (reads .chfd s.second).map r.word
  unforked : r.args.pidns → s.forked = false → .fork ∈ s.first
  pid : r.args.pidns ∧ .read .pfd .pid ∈ s.agent ∨ s.pid = r.finalPid

theorem SyncRun.sound_start (r : SyncRun) (hp : r.args.process = some p) :
    r.start.Sound r where
  agent := List.suffix_refl _
  first := List.suffix_refl _
  second := List.suffix_refl _
  pfd := by
    simp only [SyncRun.start, List.nil_append]
    rw [← writes_ranked, ← writes_ranked .pfd r.secondProgram, ← reads_ranked,
      ranked_firstProgram r hp, ranked_secondProgram, ranked_agentProgram]
    cases h : r.args.pidns <;> cases hi : r.args.p.init <;>
      simp [containerRanked, h, hi, onlyIf, writeSync, SyncRun.word]
  crfd := by
    simp only [SyncRun.start, List.nil_append]
    rw [← writes_ranked, ← reads_ranked .crfd r.firstProgram, ← reads_ranked .crfd r.secondProgram,
      ranked_firstProgram r hp, ranked_secondProgram, ranked_agentProgram]
    cases h : r.args.pidns <;> cases hi : r.args.p.init <;>
      simp [containerRanked, h, hi, onlyIf, writeSync, SyncRun.word]
  chfd := by
    simp only [SyncRun.start, List.nil_append]
    rw [← writes_ranked, ← reads_ranked, ranked_firstProgram r hp, ranked_secondProgram]
    cases h : r.args.pidns <;> cases hi : r.args.p.init <;>
      simp [containerRanked, h, hi, onlyIf, writeSync, SyncRun.word]
  unforked := by
    intro h _
    have hm : .fork ∈ ranked r.firstProgram := by
      rw [ranked_firstProgram r hp, if_pos h]
      simp
    exact (List.mem_filter.1 hm).1
  pid := by
    cases h : r.args.pidns with
    | false =>
      right
      simp [SyncRun.start, SyncRun.finalPid, h]
    | true =>
      left
      have hm : .read .pfd .pid ∈ ranked r.agentProgram := by
        rw [ranked_agentProgram]
        simp [h, onlyIf]
      exact ⟨rfl, (List.mem_filter.1 hm).1⟩

theorem reads_agentProgram (r : SyncRun) (hc : c ≠ .pfd) : reads c r.agentProgram = [] := by
  rw [← reads_ranked, ranked_agentProgram]
  cases r.args.pidns <;> cases r.args.p.init <;> simp [onlyIf, writeSync, hc.symm]

theorem writes_agentProgram (r : SyncRun) (hc : c ≠ .crfd) : writes c r.agentProgram = [] := by
  rw [← writes_ranked, ranked_agentProgram]
  cases r.args.pidns <;> cases r.args.p.init <;> simp [onlyIf, writeSync, hc.symm]

theorem reads_firstProgram (r : SyncRun) (hp : r.args.process = some p) (hc : c ≠ .crfd) :
    reads c r.firstProgram = [] := by
  rw [← reads_ranked, ranked_firstProgram r hp]
  cases h : r.args.pidns <;> cases hi : r.args.p.init <;>
    simp [containerRanked, h, hi, onlyIf, writeSync, hc.symm]

theorem writes_firstProgram (r : SyncRun) (hp : r.args.process = some p) :
    writes .crfd r.firstProgram = [] := by
  rw [← writes_ranked, ranked_firstProgram r hp]
  cases h : r.args.pidns <;> cases hi : r.args.p.init <;>
    simp [containerRanked, h, hi, onlyIf, writeSync]

theorem writes_secondProgram (r : SyncRun) (hc : c ≠ .pfd) : writes c r.secondProgram = [] := by
  rw [← writes_ranked, ranked_secondProgram]
  cases h : r.args.pidns <;> cases hi : r.args.p.init <;>
    simp [containerRanked, h, hi, onlyIf, writeSync, hc.symm]

theorem notMem_agentProgram {i : Instr} (hr : i.rank = some 11) : i ∉ r.agentProgram := by
  intro h
  have hm := mem_ranked h hr
  rw [ranked_agentProgram] at hm
  have hh (kind : HookKind) : i ∉ Hooks.run r.args.hooks kind := by
    intro hx
    obtain ⟨hk, rfl⟩ := mem_hooks hx
    cases kind <;> cases hr
  have hread (c : Pipe) (token : SyncToken) : i ≠ .read c token := by
    rintro rfl
    cases token <;> cases hr
  have hwrite (c : Pipe) (token : SyncToken) (v : Int) : i ≠ writeSync c token v := by
    rintro rfl
    cases token <;> cases hr
  revert hm
  cases r.args.pidns <;> cases r.args.p.init <;> simp [onlyIf, hread, hwrite, hh]

theorem mem_secondProgram {i : Instr} (h : i ∈ r.secondProgram) (hr : i.rank = some n) :
    r.args.pidns ∧ i ∈ containerRanked r := by
  have hm := mem_ranked h hr
  rw [ranked_secondProgram] at hm
  rw [onlyIf] at hm
  split at hm
  · rename_i hp
    exact ⟨hp, hm⟩
  · cases hm

theorem mem_containerRanked {i : Instr} (h : i ∈ containerRanked r) :
    i = .read .chfd .handover ∨ i = writeSync .pfd .prestart 0 ∨
      i = .read .crfd .prestartDone ∨ i = writeSync .pfd .poststart 0 := by
  simp only [containerRanked, onlyIf, List.flatten_cons, List.flatten_nil, List.append_nil,
    List.mem_append] at h
  rcases h with h | h
  · split at h
    · exact .inl (List.mem_singleton.1 h)
    · cases h
  · split at h
    · simp only [List.mem_cons, List.not_mem_nil, or_false] at h
      exact .inr h
    · cases h

theorem mem_firstProgram {i : Instr} (hp : r.args.process = some p) (hn : r.args.pidns)
    (h : i ∈ r.firstProgram) (hr : i.rank = some n) :
    i = writeSync .pfd .setup 0 ∨ i = .read .crfd .resume ∨ i = .fork ∨
      i = writeSync .pfd .pid r.secondPid ∨ i = .read .crfd .pidAck ∨
      i = writeSync .chfd .handover 0 ∨ i = .exit 0 := by
  have hm := mem_ranked h hr
  rw [ranked_firstProgram r hp, if_pos hn] at hm
  simpa using hm

theorem handover_mem_firstProgram (hp : r.args.process = some p) (hn : r.args.pidns) :
    writeSync .chfd .handover 0 ∈ r.firstProgram := by
  have hm : writeSync .chfd .handover 0 ∈ ranked r.firstProgram := by
    rw [ranked_firstProgram r hp, if_pos hn]
    simp
  exact (List.mem_filter.1 hm).1

/-- Once the second child is past the handover, the first one is through with the pipes. -/
theorem SyncState.Sound.turn (h : s.Sound r) (hp : r.args.process = some p)
    (hs : s.second = i :: rest) (hr : i.rank = some n) (hn : 5 < n) :
    reads .crfd s.first = [] ∧ writes .pfd s.first = [] := by
  have hi : i ∈ r.secondProgram := h.second.subset (by rw [hs]; exact List.mem_cons_self)
  have hpidns := (mem_secondProgram hi hr).1
  have hreads : reads .chfd s.second = [] := by
    apply List.eq_nil_iff_forall_not_mem.2
    intro token ht
    have hm := mem_reads.1 ht
    have hc := (mem_secondProgram (h.second.subset hm) rfl).2
    have htok : token = .handover := by
      rcases mem_containerRanked hc with he | he | he | he <;> cases he
      rfl
    subst htok
    rw [hs] at hm
    rcases List.mem_cons.1 hm with rfl | hm
    · cases hr
      exact absurd hn (by decide)
    · have hsuf := h.second
      rw [hs] at hsuf
      have hb := before_of_suffix (secondProgram_pairwise r) hsuf hm n hr 5 rfl
      rcases hb with hb | hb
      · omega
      · omega
  have hwrites : writes .chfd s.first = [] := by
    have he := h.chfd
    rw [hreads] at he
    exact (List.append_eq_nil_iff.1 he).2
  have hnone {x : Instr} {m : Nat} (hx : x ∈ s.first) (hm : x.rank = some m) : ¬ m < 5 := by
    intro hlt
    have hw := mem_of_suffix (firstProgram_pairwise r hp) h.first hx
      (handover_mem_firstProgram hp hpidns) hm rfl hlt
    have hw' := mem_writes.2 hw
    rw [hwrites] at hw'
    cases hw'
  constructor
  · apply List.eq_nil_iff_forall_not_mem.2
    intro token ht
    have hm := mem_reads.1 ht
    rcases mem_firstProgram hp hpidns (h.first.subset hm) rfl with he | he | he | he | he | he | he
      <;> cases he
    · exact hnone hm rfl (by decide)
    · exact hnone hm rfl (by decide)
  · apply List.eq_nil_iff_forall_not_mem.2
    intro w hw
    have hm := mem_writes.1 hw
    rcases mem_firstProgram hp hpidns (h.first.subset hm) rfl with he | he | he | he | he | he | he
      <;> cases he
    · exact hnone hm rfl (by decide)
    · exact hnone hm (m := 3) rfl (by decide)

@[simp] theorem SyncState.receive_agent : (s.receive p token w).agent = s.agent := by
  rw [SyncState.receive]
  split <;> rfl

@[simp] theorem SyncState.receive_first : (s.receive p token w).first = s.first := by
  rw [SyncState.receive]
  split <;> rfl

@[simp] theorem SyncState.receive_second : (s.receive p token w).second = s.second := by
  rw [SyncState.receive]
  split <;> rfl

@[simp] theorem SyncState.receive_forked : (s.receive p token w).forked = s.forked := by
  rw [SyncState.receive]
  split <;> rfl

@[simp] theorem SyncState.receive_pipe : (s.receive p token w).pipe = s.pipe := by
  rw [SyncState.receive]
  split <;> rfl

theorem SyncState.receive_pid : (s.receive p token w).pid =
    if p = .agent ∧ token = .pid then w.value else s.pid := by
  rw [SyncState.receive]
  split <;> rfl

@[simp] theorem SyncState.setPipe_pipe : (s.setPipe c ws).pipe d = if d = c then ws else s.pipe d :=
  rfl

theorem suffix_of_cons {i : Instr} (h : i :: rest <:+ is) : rest <:+ is :=
  (List.suffix_cons i rest).trans h

theorem SyncState.Sound.agent_step (h : s.Sound r) (hs : s.step .agent = some t) : t.Sound r := by
  obtain ⟨-, i, rest, hprog, hcase⟩ := SyncState.step_cases hs
  have hprog : s.agent = i :: rest := hprog
  have hsuf := h.agent
  have hpfd := h.pfd
  have hcrfd := h.crfd
  have hpid := h.pid
  rw [hprog] at hsuf hpfd hcrfd hpid
  have hrest := suffix_of_cons hsuf
  have hi : i ∈ r.agentProgram := hsuf.subset List.mem_cons_self
  rcases hcase with ⟨c, token, w, ws, rfl, hw, rfl⟩ | ⟨c, w, rfl, rfl⟩ | ⟨rfl, rfl⟩ |
    ⟨code, rfl, rfl⟩ | ⟨hsilent, rfl⟩
  · have hc : c = .pfd := by
      by_contra hc
      have hm := mem_reads.2 hi
      rw [reads_agentProgram r hc] at hm
      cases hm
    subst hc
    rw [hw, reads_read, if_pos rfl, List.map_cons, List.cons_append, List.cons_append] at hpfd
    obtain ⟨rfl, hpfd⟩ := List.cons.inj hpfd
    refine ⟨by simpa [SyncState.advance, SyncState.setPipe] using hrest, ?_, ?_, ?_, ?_, ?_, ?_, ?_⟩
    · simpa [SyncState.advance, SyncState.setPipe] using h.first
    · simpa [SyncState.advance, SyncState.setPipe] using h.second
    · simpa [SyncState.advance, SyncState.setPipe] using hpfd
    · simpa [SyncState.advance, SyncState.setPipe] using hcrfd
    · simpa [SyncState.advance, SyncState.setPipe] using h.chfd
    · simpa [SyncState.advance, SyncState.setPipe] using h.unforked
    · rw [SyncState.receive_pid]
      by_cases ht : token = .pid
      · right
        subst ht
        rcases hpid with ⟨hn, -⟩ | hpid
        · simp [SyncRun.word, SyncRun.finalPid, hn]
        · have hm := mem_ranked hi rfl
          rw [ranked_agentProgram] at hm
          cases hn : r.args.pidns with
          | true => simp [SyncRun.word, SyncRun.finalPid, hn]
          | false =>
            exfalso
            have hh (kind : HookKind) : .read .pfd .pid ∉ Hooks.run r.args.hooks kind := by
              intro hx
              obtain ⟨hk, he⟩ := mem_hooks hx
              cases he
            revert hm
            cases r.args.p.init <;> simp [hn, onlyIf, writeSync, hh]
      · simpa [ht, SyncState.advance, SyncState.setPipe, Ne.symm ht] using hpid
  · have hc : c = .crfd := by
      by_contra hc
      have hm := mem_writes.2 hi
      rw [writes_agentProgram r hc] at hm
      cases hm
    subst hc
    refine ⟨hrest, h.first, h.second, ?_, ?_, ?_, h.unforked, ?_⟩
    · simpa [SyncState.advance, SyncState.setPipe] using hpfd
    · simpa [SyncState.advance, SyncState.setPipe] using hcrfd
    · simpa [SyncState.advance, SyncState.setPipe] using h.chfd
    · simpa [SyncState.advance, SyncState.setPipe] using hpid
  · refine ⟨hrest, h.first, h.second, hpfd, hcrfd, h.chfd, nofun, ?_⟩
    simpa [SyncState.advance] using hpid
  · exact absurd hi (notMem_agentProgram rfl)
  · rw [hsilent.reads] at hpfd
    rw [hsilent.writes] at hcrfd
    refine ⟨hrest, h.first, h.second, hpfd, hcrfd, h.chfd, h.unforked, ?_⟩
    rcases hpid with ⟨hn, hm⟩ | hpid
    · rcases List.mem_cons.1 hm with rfl | hm
      · exact hsilent.elim
      · exact .inl ⟨hn, hm⟩
    · exact .inr hpid

theorem ranked_after_exit (hp : is.Pairwise Before) (hs : .exit code :: rest <:+ is) :
    ranked rest = [] := by
  apply ranked_eq_nil
  intro i hi
  by_contra hr
  obtain ⟨n, hn⟩ := Option.ne_none_iff_exists'.1 hr
  have hle := Instr.rank_le hn
  rcases before_of_suffix hp hs hi 11 rfl n hn with hb | hb
  · omega
  · omega

theorem SyncState.Sound.first_step (h : s.Sound r) (hp : r.args.process = some p)
    (hs : s.step .first = some t) : t.Sound r := by
  obtain ⟨-, i, rest, hprog, hcase⟩ := SyncState.step_cases hs
  have hprog : s.first = i :: rest := hprog
  have hsuf := h.first
  have hpfd := h.pfd
  have hcrfd := h.crfd
  have hchfd := h.chfd
  have hunforked := h.unforked
  rw [hprog] at hsuf hpfd hcrfd hchfd hunforked
  have hrest := suffix_of_cons hsuf
  have hi : i ∈ r.firstProgram := hsuf.subset List.mem_cons_self
  rcases hcase with ⟨c, token, w, ws, rfl, hw, rfl⟩ | ⟨c, w, rfl, rfl⟩ | ⟨rfl, rfl⟩ |
    ⟨code, rfl, rfl⟩ | ⟨hsilent, rfl⟩
  · have hc : c = .crfd := by
      by_contra hc
      have hm := mem_reads.2 hi
      rw [reads_firstProgram r hp hc] at hm
      cases hm
    subst hc
    rw [hw, reads_read, if_pos rfl, List.cons_append, List.cons_append, List.map_cons] at hcrfd
    obtain ⟨rfl, hcrfd⟩ := List.cons.inj hcrfd
    refine ⟨?_, by simpa [SyncState.advance, SyncState.setPipe] using hrest, ?_, ?_, ?_, ?_, ?_, ?_⟩
    · simpa [SyncState.advance, SyncState.setPipe] using h.agent
    · simpa [SyncState.advance, SyncState.setPipe] using h.second
    · simpa [SyncState.advance, SyncState.setPipe] using hpfd
    · simpa [SyncState.advance, SyncState.setPipe] using hcrfd
    · simpa [SyncState.advance, SyncState.setPipe] using hchfd
    · simpa [SyncState.advance, SyncState.setPipe] using hunforked
    · rw [SyncState.receive_pid]
      simpa [SyncState.advance, SyncState.setPipe] using h.pid
  · have hc : c ≠ .crfd := by
      rintro rfl
      have hm := mem_writes.2 hi
      rw [writes_firstProgram r hp] at hm
      cases hm
    refine ⟨h.agent, hrest, h.second, ?_, ?_, ?_, ?_, h.pid⟩
    · by_cases hd : c = .pfd
      · simpa [hd, SyncState.advance, SyncState.setPipe] using hpfd
      · simpa [hd, Ne.symm hd, SyncState.advance, SyncState.setPipe] using hpfd
    · simpa [hc.symm, SyncState.advance, SyncState.setPipe] using hcrfd
    · by_cases hd : c = .chfd
      · simpa [hd, SyncState.advance, SyncState.setPipe] using hchfd
      · simpa [hd, Ne.symm hd, SyncState.advance, SyncState.setPipe] using hchfd
    · simpa [SyncState.advance, SyncState.setPipe] using hunforked
  · exact ⟨h.agent, hrest, h.second, hpfd, hcrfd, hchfd, nofun, h.pid⟩
  · have hnil := ranked_after_exit (firstProgram_pairwise r hp) hsuf
    have hreads (c : Pipe) : reads c rest = [] := by rw [← reads_ranked, hnil, reads_nil]
    have hwrites (c : Pipe) : writes c rest = [] := by rw [← writes_ranked, hnil, writes_nil]
    rw [writes_exit, hwrites] at hpfd hchfd
    rw [reads_exit, hreads] at hcrfd
    refine ⟨h.agent, List.nil_suffix, h.second, hpfd, hcrfd, hchfd, ?_, h.pid⟩
    intro hn hf
    rcases List.mem_cons.1 (hunforked hn hf) with he | hm
    · cases he
    · have hm := mem_ranked hm rfl
      rw [hnil] at hm
      cases hm
  · rw [hsilent.writes] at hpfd hchfd
    rw [hsilent.reads] at hcrfd
    refine ⟨h.agent, hrest, h.second, hpfd, hcrfd, hchfd, ?_, h.pid⟩
    intro hn hf
    rcases List.mem_cons.1 (hunforked hn hf) with he | hm
    · rw [← he] at hsilent
      exact hsilent.elim
    · exact hm

theorem SyncState.Sound.second_step (h : s.Sound r) (hp : r.args.process = some p)
    (hs : s.step .second = some t) : t.Sound r := by
  obtain ⟨-, i, rest, hprog, hcase⟩ := SyncState.step_cases hs
  have hprog : s.second = i :: rest := hprog
  have hsuf := h.second
  have hpfd := h.pfd
  have hcrfd := h.crfd
  have hchfd := h.chfd
  rw [hprog] at hsuf hpfd hcrfd hchfd
  have hrest := suffix_of_cons hsuf
  have hi : i ∈ r.secondProgram := hsuf.subset List.mem_cons_self
  rcases hcase with ⟨c, token, w, ws, rfl, hw, rfl⟩ | ⟨c, w, rfl, rfl⟩ | ⟨rfl, rfl⟩ |
    ⟨code, rfl, rfl⟩ | ⟨hsilent, rfl⟩
  · have hpid : (((s.advance .second rest).setPipe c ws).receive .second token w).pid = s.pid := by
      rw [SyncState.receive_pid]
      rfl
    rcases mem_containerRanked (mem_secondProgram hi rfl).2 with he | he | he | he <;> cases he
    · rw [hw, reads_read, if_pos rfl, List.map_cons, List.cons_append] at hchfd
      obtain ⟨rfl, hchfd⟩ := List.cons.inj hchfd
      refine ⟨?_, ?_, by simpa [SyncState.advance, SyncState.setPipe] using hrest, ?_, ?_, ?_, ?_,
        ?_⟩
      · simpa [SyncState.advance, SyncState.setPipe] using h.agent
      · simpa [SyncState.advance, SyncState.setPipe] using h.first
      · simpa [SyncState.advance, SyncState.setPipe] using hpfd
      · simpa [SyncState.advance, SyncState.setPipe] using hcrfd
      · simpa [SyncState.advance, SyncState.setPipe] using hchfd
      · simpa [SyncState.advance, SyncState.setPipe] using h.unforked
      · rw [hpid]
        simpa [SyncState.advance, SyncState.setPipe] using h.pid
    · have hturn := (h.turn hp hprog rfl (by decide)).1
      rw [hw, hturn, List.nil_append, reads_read, if_pos rfl, List.map_cons,
        List.cons_append] at hcrfd
      obtain ⟨rfl, hcrfd⟩ := List.cons.inj hcrfd
      refine ⟨?_, ?_, by simpa [SyncState.advance, SyncState.setPipe] using hrest, ?_, ?_, ?_, ?_,
        ?_⟩
      · simpa [SyncState.advance, SyncState.setPipe] using h.agent
      · simpa [SyncState.advance, SyncState.setPipe] using h.first
      · simpa [SyncState.advance, SyncState.setPipe] using hpfd
      · simpa [SyncState.advance, SyncState.setPipe, hturn] using hcrfd
      · simpa [SyncState.advance, SyncState.setPipe] using hchfd
      · simpa [SyncState.advance, SyncState.setPipe] using h.unforked
      · rw [hpid]
        simpa [SyncState.advance, SyncState.setPipe] using h.pid
  · have hmem := mem_containerRanked (mem_secondProgram hi rfl).2
    have hturn : writes .pfd s.first = [] := by
      rcases hmem with he | he | he | he <;> cases he
      · exact (h.turn hp hprog rfl (by decide)).2
      · exact (h.turn hp hprog rfl (by decide)).2
    have hc : c = .pfd := by
      rcases hmem with he | he | he | he <;> cases he
      · rfl
      · rfl
    subst hc
    rw [hturn, List.append_nil] at hpfd
    refine ⟨h.agent, h.first, hrest, ?_, ?_, ?_, h.unforked, h.pid⟩
    · simpa [SyncState.advance, SyncState.setPipe, hturn] using hpfd
    · simpa [SyncState.advance, SyncState.setPipe] using hcrfd
    · simpa [SyncState.advance, SyncState.setPipe] using hchfd
  · rcases mem_containerRanked (mem_secondProgram hi rfl).2 with he | he | he | he <;> cases he
  · rcases mem_containerRanked (mem_secondProgram hi rfl).2 with he | he | he | he <;> cases he
  · rw [hsilent.writes] at hpfd
    rw [hsilent.reads] at hcrfd hchfd
    exact ⟨h.agent, h.first, hrest, hpfd, hcrfd, hchfd, h.unforked, h.pid⟩

theorem SyncRun.sound_of_reach (hp : r.args.process = some p) (h : r.system.Reachable s) :
    s.Sound r := by
  apply h.invariant
  · rintro s rfl
    exact r.sound_start hp
  · intro s party t hs _ ht
    cases party with
    | agent => exact hs.agent_step ht
    | first => exact hs.first_step hp ht
    | second => exact hs.second_step hp ht

end KataAgent
