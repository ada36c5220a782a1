import KataAgent.SyncInvariant

namespace KataAgent
open Fallible Transition
set_option autoImplicit true

variable {r : SyncRun} {s t : SyncState}

/-- The party is there and waits for a word on an empty pipe. -/
def SyncState.blocked (s : SyncState) (p : Party) (token : SyncToken) : Prop :=
  s.present p ∧ ∃ c rest, s.program p = .read c token :: rest ∧ s.pipe c = []

def SyncRun.programOf (r : SyncRun) : Party → List Instr
  | .agent => r.agentProgram
  | .first => r.firstProgram
  | .second => r.secondProgram

theorem SyncState.Sound.program_suffix (h : s.Sound r) (p : Party) :
    s.program p <:+ r.programOf p := by
  cases p with
  | agent => exact h.agent
  | first => exact h.first
  | second => exact h.second

theorem SyncRun.programOf_pairwise (hp : r.args.process = some proc) (p : Party) :
    (r.programOf p).Pairwise Before := by
  cases p with
  | agent => exact agentProgram_pairwise r
  | first => exact firstProgram_pairwise r hp
  | second => exact secondProgram_pairwise r

/-- No party fails, and none gets as far as its `exec`. -/
theorem SyncRun.notMem_programOf (hp : r.args.process = some proc) {i : Instr}
    (hi : (∃ e, i = .fail e) ∨ ∃ args env, i = .exec args env) : i ∉ r.programOf p := by
  have hr : i.rank = some 11 := by
    rcases hi with ⟨e, rfl⟩ | ⟨args, env, rfl⟩
    · rfl
    · rfl
  have hc : i ∉ containerRanked r := by
    intro hm
    rcases mem_containerRanked hm with rfl | rfl | rfl | rfl <;> simp [writeSync] at hi
  intro hm
  cases p with
  | agent => exact notMem_agentProgram hr hm
  | first =>
    have hm : i ∈ ranked r.firstProgram := mem_ranked hm hr
    rw [ranked_firstProgram r hp] at hm
    rcases List.mem_cons.1 hm with rfl | hm
    · simp [writeSync] at hi
    · rcases List.mem_cons.1 hm with rfl | hm
      · simp at hi
      · split at hm
        · simp only [List.mem_cons, List.not_mem_nil, or_false] at hm
          rcases hm with rfl | rfl | rfl | rfl | rfl <;> simp [writeSync] at hi
        · exact hc hm
  | second => exact hc (mem_secondProgram hm hr).2

theorem SyncState.Sound.stuck_cases (h : s.Sound r) (hp : r.args.process = some proc)
    (hq : s.present p) (hs : s.step p = none) :
    s.program p = [] ∨ ∃ token, s.blocked p token := by
  cases hprog : s.program p with
  | nil => exact .inl rfl
  | cons i rest =>
    right
    have hmem : i ∈ r.programOf p :=
      (h.program_suffix p).subset (by rw [hprog]; exact List.mem_cons_self)
    simp only [SyncState.step, if_pos hq, hprog] at hs
    cases i with
    | read c token =>
      refine ⟨token, hq, c, rest, hprog, ?_⟩
      cases hw : s.pipe c with
      | nil => rfl
      | cons w ws =>
        simp only [hw] at hs
        cases hs
    | fail e => exact absurd hmem (r.notMem_programOf hp (.inl ⟨e, rfl⟩))
    | exec args env => exact absurd hmem (r.notMem_programOf hp (.inr ⟨args, env, rfl⟩))
    | _ => cases hs

theorem SyncToken.rank_ne_hook (token : SyncToken) : ¬ (token.rank = 7 ∨ token.rank = 10) := by
  cases token <;> decide

/-- A party that has something ranked still to do is blocked at an earlier position. -/
theorem SyncState.Sound.blocked_before (h : s.Sound r) (hp : r.args.process = some proc)
    (hq : s.present p) (hs : s.step p = none) {i : Instr} (hi : i ∈ s.program p)
    (hr : i.rank = some n) (hread : ∀ c token, i ≠ .read c token) :
    ∃ token, s.blocked p token ∧ token.rank < n := by
  rcases h.stuck_cases hp hq hs with hnil | ⟨token, hb⟩
  · rw [hnil] at hi
    cases hi
  · refine ⟨token, hb, ?_⟩
    obtain ⟨-, c, rest, hprog, -⟩ := hb
    have hsuf := h.program_suffix p
    rw [hprog] at hsuf hi
    rcases List.mem_cons.1 hi with rfl | hi
    · exact absurd rfl (hread c token)
    · have hb := before_of_suffix (r.programOf_pairwise hp p) hsuf hi token.rank rfl n hr
      rcases hb with hb | ⟨-, hb⟩
      · exact hb
      · exact absurd hb token.rank_ne_hook

theorem SyncState.present_agent : s.present .agent := nofun

theorem SyncState.present_first : s.present .first := nofun

theorem SyncState.Sound.writer_blocked (h : s.Sound r) (hp : r.args.process = some proc)
    (hq : s.present p) (hs : s.step p = none) (hw : r.word token ∈ writes c (s.program p)) :
    ∃ q earlier, s.blocked q earlier ∧ earlier.rank < token.rank := by
  obtain ⟨earlier, hb, hlt⟩ := h.blocked_before hp hq hs (mem_writes.1 hw) rfl nofun
  exact ⟨p, earlier, hb, hlt⟩

/-- In a state without a step, a blocked party waits for one that is blocked earlier. -/
theorem SyncState.Sound.blocked_lower (h : s.Sound r) (hp : r.args.process = some proc)
    (hs : ∀ p, s.step p = none) (hb : s.blocked p token) :
    ∃ q earlier, s.blocked q earlier ∧ earlier.rank < token.rank := by
  obtain ⟨hq, c, rest, hprog, hempty⟩ := hb
  have hmem : .read c token ∈ r.programOf p :=
    (h.program_suffix p).subset (by rw [hprog]; exact List.mem_cons_self)
  have hfromAgent {ts : List SyncToken} (hw : writes .crfd s.agent = (token :: ts).map r.word) :
      ∃ q earlier, s.blocked q earlier ∧ earlier.rank < token.rank := by
    apply h.writer_blocked hp SyncState.present_agent (hs _) (c := .crfd)
    have hw : writes .crfd (s.program .agent) = (token :: ts).map r.word := hw
    rw [hw]
    exact List.mem_cons_self
  cases p with
  | agent =>
    have hprog : s.agent = .read c token :: rest := hprog
    have hc : c = .pfd := by
      by_contra hc
      have hm := mem_reads.2 hmem
      rw [SyncRun.programOf, reads_agentProgram r hc] at hm
      cases hm
    subst hc
    have he := h.pfd
    rw [hempty, hprog, reads_read, if_pos rfl, List.nil_append] at he
    have hw : r.word token ∈ writes .pfd s.first ++ writes .pfd s.second := by
      rw [he]
      exact List.mem_cons_self
    rcases List.mem_append.1 hw with hw | hw
    · exact h.writer_blocked hp SyncState.present_first (hs _) hw
    · by_cases hf : s.forked
      · exact h.writer_blocked (p := .second) hp (fun _ => hf) (hs _) hw
      · have hm := mem_secondProgram (h.second.subset (mem_writes.1 hw)) rfl
        have hfork := h.unforked hm.1 (by simpa using hf)
        obtain ⟨earlier, hb, hlt⟩ :=
          h.blocked_before (p := .first) hp SyncState.present_first (hs _) hfork rfl nofun
        refine ⟨.first, earlier, hb, hlt.trans ?_⟩
        rcases mem_containerRanked hm.2 with he | he | he | he <;>
          simp only [writeSync, SyncRun.word, reduceCtorEq, Instr.write.injEq, SyncWord.mk.injEq]
            at he
        · rw [he.2.1]
          decide
        · rw [he.2.1]
          decide
  | first =>
    have hprog : s.first = .read c token :: rest := hprog
    have hc : c = .crfd := by
      by_contra hc
      have hm := mem_reads.2 hmem
      rw [SyncRun.programOf, reads_firstProgram r hp hc] at hm
      cases hm
    subst hc
    have he := h.crfd
    rw [hempty, hprog, reads_read, if_pos rfl, List.nil_append] at he
    exact hfromAgent he
  | second =>
    have hprog : s.second = .read c token :: rest := hprog
    rcases mem_containerRanked (mem_secondProgram hmem rfl).2 with he | he | he | he <;> cases he
    · have he := h.chfd
      rw [hempty, hprog, reads_read, if_pos rfl, List.nil_append] at he
      apply h.writer_blocked hp SyncState.present_first (hs _) (c := .chfd)
      have he : writes .chfd (s.program .first) = (.handover :: reads .chfd rest).map r.word := he
      rw [he]
      exact List.mem_cons_self
    · have he := h.crfd
      rw [hempty, (h.turn hp hprog rfl (by decide)).1, hprog, reads_read, if_pos rfl,
        List.nil_append, List.nil_append] at he
      exact hfromAgent he

theorem SyncState.Sound.not_blocked (h : s.Sound r) (hp : r.args.process = some proc)
    (hs : ∀ p, s.step p = none) (p : Party) (token : SyncToken) : ¬ s.blocked p token := by
  have hall (n : Nat) : ∀ p token, token.rank = n → ¬ s.blocked p token := by
    induction n using Nat.strong_induction_on with
    | h n ih =>
      intro p token hn hb
      obtain ⟨q, earlier, hq, hlt⟩ := h.blocked_lower hp hs hb
      exact ih earlier.rank (by omega) q earlier rfl hq
  exact hall token.rank p token rfl

/-- All three parties are through: the agent has returned, the first child has exited or is
the container process, and the container process is past its last word. -/
def SyncState.final (s : SyncState) : Prop := s.agent = [] ∧ s.first = [] ∧ s.second = []

theorem SyncState.Sound.final_of_stuck (h : s.Sound r) (hp : r.args.process = some proc)
    (hs : ∀ p, s.step p = none) : s.final := by
  have hdone (p : Party) (hq : s.present p) : s.program p = [] := by
    rcases h.stuck_cases hp hq (hs p) with hnil | ⟨token, hb⟩
    · exact hnil
    · exact absurd hb (h.not_blocked hp hs p token)
  have hfirst : s.first = [] := hdone .first SyncState.present_first
  refine ⟨hdone .agent SyncState.present_agent, hfirst, ?_⟩
  by_cases hf : s.forked
  · exact hdone .second fun _ => hf
  · by_cases hn : r.args.pidns
    · have hm := h.unforked hn (by simpa using hf)
      rw [hfirst] at hm
      cases hm
    · have hsuf := h.second
      rw [SyncRun.secondProgram, onlyIf, if_neg hn] at hsuf
      exact List.suffix_nil.1 hsuf

theorem SyncState.Sound.received (h : s.Sound r) (hp : r.args.process = some proc)
    (hprog : s.program p = .read c token :: rest) (hw : s.pipe c = w :: ws) :
    w = r.word token := by
  have hmem : .read c token ∈ r.programOf p :=
    (h.program_suffix p).subset (by rw [hprog]; exact List.mem_cons_self)
  cases p with
  | agent =>
    have hprog : s.agent = .read c token :: rest := hprog
    have hc : c = .pfd := by
      by_contra hc
      have hm := mem_reads.2 hmem
      rw [SyncRun.programOf, reads_agentProgram r hc] at hm
      cases hm
    subst hc
    have he := h.pfd
    rw [hw, hprog, reads_read, if_pos rfl, List.map_cons, List.cons_append, List.cons_append] at he
    exact (List.cons.inj he).1
  | first =>
    have hprog : s.first = .read c token :: rest := hprog
    have hc : c = .crfd := by
      by_contra hc
      have hm := mem_reads.2 hmem
      rw [SyncRun.programOf, reads_firstProgram r hp hc] at hm
      cases hm
    subst hc
    have he := h.crfd
    rw [hw, hprog, reads_read, if_pos rfl, List.cons_append, List.cons_append, List.map_cons] at he
    exact (List.cons.inj he).1
  | second =>
    have hprog : s.second = .read c token :: rest := hprog
    rcases mem_containerRanked (mem_secondProgram hmem rfl).2 with he | he | he | he <;> cases he
    · have he := h.chfd
      rw [hw, hprog, reads_read, if_pos rfl, List.map_cons, List.cons_append] at he
      exact (List.cons.inj he).1
    · have he := h.crfd
      rw [hw, (h.turn hp hprog rfl (by decide)).1, hprog, reads_read, if_pos rfl, List.nil_append,
        List.map_cons, List.cons_append] at he
      exact (List.cons.inj he).1

/-- The party at whose position a word from the agent is read. -/
theorem SyncRun.reader_crfd (hp : r.args.process = some proc)
    (hmem : .read .crfd token ∈ r.programOf p) :
    (token = .pidAck → p = .first) ∧ (token = .prestartDone → p = r.container) := by
  cases p with
  | agent =>
    have hm := mem_reads.2 hmem
    rw [SyncRun.programOf, reads_agentProgram r (c := .crfd) (by decide)] at hm
    cases hm
  | first =>
    refine ⟨fun _ => rfl, ?_⟩
    rintro rfl
    rw [SyncRun.container]
    split
    · rename_i hn
      rcases mem_firstProgram hp hn hmem rfl with he | he | he | he | he | he | he <;> cases he
    · rfl
  | second =>
    obtain ⟨hn, hm⟩ := mem_secondProgram hmem rfl
    rcases mem_containerRanked hm with he | he | he | he <;> cases he
    exact ⟨nofun, fun _ => by rw [SyncRun.container, if_pos hn]⟩

theorem mem_prestartDone (hi : r.args.p.init) :
    writeSync .crfd .prestartDone 0 ∈ r.agentProgram := by
  have hm : writeSync .crfd .prestartDone 0 ∈ ranked r.agentProgram := by
    rw [ranked_agentProgram]
    simp [onlyIf, hi]
  exact (List.mem_filter.1 hm).1

theorem SyncState.Sound.prestart_done (h : s.Sound r) (hp : r.args.process = some proc)
    (hi : r.args.p.init) (hread : .read .crfd .prestartDone ∉ s.program r.container) (hk : Hook) :
    .hook .prestart hk ∉ s.agent := by
  intro hm
  have hw := mem_of_suffix (agentProgram_pairwise r) h.agent hm (mem_prestartDone hi) rfl
    (n := 8) rfl (by decide)
  have hw : ⟨.prestartDone, 0⟩ ∈ s.pipe .crfd ++ writes .crfd s.agent :=
    List.mem_append_right _ (mem_writes.2 hw)
  rw [h.crfd] at hw
  obtain ⟨token, ht, he⟩ := List.mem_map.1 hw
  have htok : token = .prestartDone := congrArg SyncWord.token he
  subst htok
  rcases List.mem_append.1 ht with ht | ht
  · have hmem := mem_reads.1 ht
    have hc := (r.reader_crfd hp (p := .first) (h.first.subset hmem)).2 rfl
    rw [← hc] at hread
    exact hread hmem
  · have hmem := mem_reads.1 ht
    have hc := (r.reader_crfd hp (p := .second) (h.second.subset hmem)).2 rfl
    rw [← hc] at hread
    exact hread hmem

theorem SyncState.Sound.poststart_last (h : s.Sound r) (hp : r.args.process = some proc)
    (hprog : s.agent = .hook .poststart hk :: rest) (c : Pipe) (w : SyncWord) :
    .write c w ∉ s.program r.container := by
  have hsuf := h.agent
  rw [hprog] at hsuf
  have hreads : reads .pfd s.agent = [] := by
    apply List.eq_nil_iff_forall_not_mem.2
    intro token ht
    have hm := mem_reads.1 ht
    rw [hprog] at hm
    rcases List.mem_cons.1 hm with he | hm
    · cases he
    · have hle := token.rank_le
      rcases before_of_suffix (agentProgram_pairwise r) hsuf hm 10 rfl token.rank rfl with hb | hb
      · omega
      · omega
  have hpfd := h.pfd
  rw [hreads] at hpfd
  obtain ⟨hpfd, hsecond⟩ := List.append_eq_nil_iff.1 hpfd
  have hfirst := (List.append_eq_nil_iff.1 hpfd).2
  intro hm
  rw [SyncRun.container] at hm
  split at hm
  · by_cases hc : c = .pfd
    · have hw := mem_writes.2 hm
      rw [hc] at hw
      have hw : w ∈ writes .pfd s.second := hw
      rw [hsecond] at hw
      cases hw
    · have hw := mem_writes.2 (h.second.subset hm)
      rw [writes_secondProgram r hc] at hw
      cases hw
  · rename_i hn
    have hc : c = .pfd := by
      have hmr := mem_ranked (h.first.subset hm) rfl
      rw [ranked_firstProgram r hp, if_neg hn] at hmr
      rcases List.mem_cons.1 hmr with he | hmr
      · cases he
        rfl
      · rcases List.mem_cons.1 hmr with he | hmr
        · cases he
        · rcases mem_containerRanked hmr with he | he | he | he <;> cases he
          · rfl
          · rfl
    have hw := mem_writes.2 hm
    rw [hc] at hw
    have hw : w ∈ writes .pfd s.first := hw
    rw [hfirst] at hw
    cases hw

/-- How many instructions are left. -/
def SyncState.size (s : SyncState) : Nat := s.agent.length + s.first.length + s.second.length

theorem SyncState.size_step (h : s.step p = some t) : t.size < s.size := by
  obtain ⟨-, i, rest, hprog, hcase⟩ := SyncState.step_cases h
  have hadvance (js : List Instr) (hj : js.length ≤ rest.length) :
      (s.advance p js).size < s.size := by
    cases p with
    | agent =>
      have hprog : s.agent = i :: rest := hprog
      simp only [SyncState.size, SyncState.advance, hprog, List.length_cons]
      omega
    | first =>
      have hprog : s.first = i :: rest := hprog
      simp only [SyncState.size, SyncState.advance, hprog, List.length_cons]
      omega
    | second =>
      have hprog : s.second = i :: rest := hprog
      simp only [SyncState.size, SyncState.advance, hprog, List.length_cons]
      omega
  have hrest := hadvance rest le_rfl
  rcases hcase with ⟨c, token, w, ws, rfl, hw, rfl⟩ | ⟨c, w, rfl, rfl⟩ | ⟨rfl, rfl⟩ |
    ⟨code, rfl, rfl⟩ | ⟨hsilent, rfl⟩
  · simpa [SyncState.size, SyncState.setPipe] using hrest
  · exact hrest
  · exact hrest
  · exact hadvance [] (Nat.zero_le _)
  · exact hrest

/-- What the protocol promises in every state of a start. -/
structure SyncState.Synchronised (r : SyncRun) (s : SyncState) : Prop where
  /-- Every read gets the word that its position expects. -/
  received : ∀ p c token rest w ws, s.program p = .read c token :: rest → s.pipe c = w :: ws →
    w = r.word token
  finalPid : .read .pfd .pid ∉ s.agent → s.pid = r.finalPid
  /-- Only the first child takes the acknowledgement of the pid, and only the container process
  the one of the prestart hooks. -/
  acks : ∀ p token rest w ws, s.program p = .read .crfd token :: rest → s.pipe .crfd = w :: ws →
    (w.token = .pidAck → p = .first) ∧ (w.token = .prestartDone → p = r.container)
  prestart : r.args.p.init → .read .crfd .prestartDone ∉ s.program r.container →
    ∀ h, .hook .prestart h ∉ s.agent
  poststart : ∀ h rest, s.agent = .hook .poststart h :: rest →
    ∀ c w, .write c w ∉ s.program r.container
  progress : (∀ p, s.step p = none) → s.final
  finite : ∀ p t, s.step p = some t → t.size < s.size

theorem joinNamespaces_synchronised (r : SyncRun) (hp : r.args.process = some proc)
    (h : r.system.Reachable s) : s.Synchronised r := by
  have hs := SyncRun.sound_of_reach hp h
  refine ⟨?_, ?_, ?_, ?_, ?_, ?_, ?_⟩
  · exact fun p c token rest w ws hprog hw => hs.received hp hprog hw
  · intro hread
    rcases hs.pid with ⟨-, hm⟩ | hpid
    · exact absurd hm hread
    · exact hpid
  · intro p token rest w ws hprog hw
    have hword := hs.received hp hprog hw
    subst hword
    exact r.reader_crfd hp ((hs.program_suffix p).subset (by rw [hprog]; exact List.mem_cons_self))
  · exact fun hi hread hk => hs.prestart_done hp hi hread hk
  · exact fun hk rest hprog c w => hs.poststart_last hp hprog c w
  · exact fun hstuck => hs.final_of_stuck hp hstuck
  · exact fun p t ht => SyncState.size_step ht

/-- A process with a pid and a user namespace of its own and one hook of each kind. -/
def podProcess : OCIProcess where
  terminal := false
  user := none
  args := ["sh"]
  env := []
  cwd := "/"
  capabilities := none
  rlimits := []
  noNewPrivileges := false
  oomScoreAdj := 0

def podStart : StartArgs where
  p := ⟨"", 10, 13, 15, 11, 12, 14, none, true, podProcess⟩
  process := some podProcess
  root := ⟨"/run/rootfs", false⟩
  hostname := "pod"
  hooks := some ⟨[⟨"/bin/pre", [], [], 0⟩], [⟨"/bin/post", [], [], 0⟩], []⟩
  linux := ⟨[], [], [], none, [], []⟩
  toNew := {.newPid, .newUser}
  toJoin := []
  pidns := true
  userns := true
  noPivot := false
  fifofd := 9
  master := 20
  slave := 21

/-- The state in which the first child has written the pid of the second one. -/
theorem joinNamespaces_synchronised_pod : ∃ s,
    (SyncRun.mk podStart 100 101).system.run (SyncRun.mk podStart 100 101).start
      (List.replicate 4 .first ++ List.replicate 6 .agent ++ List.replicate 10 .first) = some s ∧
    s.pipe .pfd = [⟨.pid, 101⟩] ∧ s.Synchronised (SyncRun.mk podStart 100 101) := by
  have hr : (((SyncRun.mk podStart 100 101).system.run (SyncRun.mk podStart 100 101).start
      (List.replicate 4 .first ++ List.replicate 6 .agent ++ List.replicate 10 .first)).map
        fun s => s.pipe .pfd) = some [⟨.pid, 101⟩] := by decide
  obtain ⟨s, hs, hw⟩ := Option.map_eq_some_iff.1 hr
  exact ⟨s, hs, hw, joinNamespaces_synchronised _ rfl (System.reachable_of_run rfl hs)⟩

end KataAgent
