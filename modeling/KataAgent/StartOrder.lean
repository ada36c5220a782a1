import KataAgent.ChildConfinement
import KataAgent.SyncCompletion

namespace KataAgent
open Fallible Transition
set_option autoImplicit true

/-- The calls that the first child makes for itself before the agent looks after it. -/
def SysCall.limits : SysCall → Bool
  | .writeOomScoreAdj _ => true
  | .setrlimit _ => true
  | .unshare flags => flags = {.newUser}
  | _ => false

/-- The calls of the agent that let the first child into its id mappings and its cgroups. -/
def SysCall.admits : SysCall → Bool
  | .writeMappings _ _ => true
  | .setCgroups => true
  | .applyCgroups => true
  | _ => false

/-- The calls that make what a prestart hook finds. -/
def SysCall.populates : SysCall → Bool
  | .sethostname _ => true
  | .initRootfs _ => true
  | _ => false

/-- The call that puts the container process into its root. -/
def StartArgs.switchRoot (a : StartArgs) : SysCall :=
  if a.noPivot then .msMoveRoot else .pivotRootfs

/-- What comes before what in a start, whichever party is the next to move. -/
structure SyncState.Ordered (r : SyncRun) (s : SyncState) : Prop where
  /-- The agent waits while the first child has a limit or its user namespace to get. -/
  limited : ∀ c, c.limits → .call c ∈ s.first → .read .pfd .setup ∈ s.agent
  /-- The first child waits, and has no child, until it is mapped and in its cgroups. -/
  admitted : ∀ c, c.admits → .call c ∈ s.agent →
    .read .crfd .resume ∈ s.first ∧ (r.args.pidns → s.forked = false)
  /-- A prestart hook finds the root file system made, and the container process outside of it. -/
  populated : ∀ h rest, s.agent = .hook .prestart h :: rest →
    ∀ c, c.populates → .call c ∉ s.program r.container
  outside : ∀ h, .hook .prestart h ∈ s.agent → .newNs ∈ r.args.toNew →
    .call r.args.switchRoot ∈ s.program r.container
  /-- A poststart hook finds the container process at its exec fifo. -/
  complete : ∀ h rest, s.agent = .hook .poststart h :: rest → s.program r.container = []

section
variable {r : SyncRun} {s t : SyncState} {is js pre post : List Instr} {x : Instr}

/-- A position of a program is still to come, with all after it, or is past. -/
theorem suffix_position (his : is = pre ++ x :: post) (hjs : js <:+ is) :
    x :: post <:+ js ∨ js <:+ post := by
  have hpost : x :: post <:+ is := ⟨pre, his.symm⟩
  rcases List.suffix_or_suffix_of_suffix hjs hpost with h | h
  · rcases List.suffix_cons_iff.1 h with rfl | h
    · exact .inl List.suffix_rfl
    · exact .inr h
  · exact .inl h

theorem suffix_of_notMem (his : is = pre ++ x :: post) (hjs : js <:+ is) (hx : x ∉ js) :
    js <:+ post := by
  rcases suffix_position his hjs with h | h
  · exact absurd (h.subset List.mem_cons_self) hx
  · exact h

/-- The instruction is one of the calls above. -/
def Instr.staged : Instr → Bool
  | .call c => c.limits || c.admits || c.populates
  | _ => false

/-- The call leaves namespaces alone, and is none of those above. -/
def SysCall.routine : SysCall → Bool
  | .unshare _ => false
  | .setns _ _ => false
  | c => !(c.limits || c.admits || c.populates)

/-- The process stays where it is. -/
def Instr.routine : Instr → Bool
  | .call c => c.routine
  | .fork => false
  | _ => true

theorem staged_of_routine (h : x.routine = true) : x.staged = false := by
  cases x with
  | call c =>
    cases c with
    | unshare flags => cases h
    | setns fd flag => cases h
    | _ => first | rfl | cases h
  | _ => rfl

theorem forall_mem_hooks {hooks : Option Hooks} {kind : HookKind} :
    ∀ i ∈ Hooks.run hooks kind, i.routine = true := by
  intro i hi
  obtain ⟨h, rfl⟩ := mem_hooks hi
  rfl

attribute [local simp] Instr.routine SysCall.routine SysCall.limits SysCall.admits
  SysCall.populates

theorem forall_mem_setid (uid gid : Nat) : ∀ i ∈ setid uid gid, i.routine = true := by
  simp only [setid, List.flatten_cons, List.flatten_nil, List.forall_mem_append,
    List.forall_mem_cons, forall_mem_onlyIf]
  simp

theorem forall_mem_setupStdio (p : Process) (master slave : RawFd) :
    ∀ i ∈ setupStdio p master slave, i.routine = true := by
  rw [setupStdio]
  split
  · simp only [List.flatten_cons, List.flatten_nil, List.forall_mem_append,
      List.forall_mem_cons, forall_mem_onlyIf]
    simp
  · simp only [List.flatten_cons, List.flatten_nil, List.forall_mem_append,
      List.forall_mem_cons, forall_mem_onlyIf]
    simp

theorem forall_mem_setUser (user : Option User) : ∀ i ∈ setUser user, i.routine = true := by
  cases user with
  | none => exact List.forall_mem_nil _
  | some user =>
    rw [setUser, List.forall_mem_append, forall_mem_onlyIf]
    exact ⟨forall_mem_setid _ _, fun _ => by simp⟩

theorem forall_mem_setCapabilities (caps : Option LinuxCapabilities) :
    ∀ i ∈ setCapabilities caps, i.routine = true := by
  cases caps with
  | none => exact List.forall_mem_nil _
  | some caps =>
    intro i hi
    cases List.mem_singleton.1 hi
    rfl

theorem forall_mem_joinLoop (toJoin : List (CloneFlag × RawFd)) :
    ∀ i ∈ joinLoop toJoin, i.staged = false := by
  induction toJoin with
  | nil => exact List.forall_mem_nil _
  | cons p toJoin ih =>
    rw [joinLoop]
    split
    · exact ih
    · simp only [List.flatten_cons, List.flatten_nil, List.append_nil, List.forall_mem_append,
        List.forall_mem_cons, List.not_mem_nil, IsEmpty.forall_iff, implies_true, and_true,
        forall_mem_onlyIf]
      exact ⟨⟨rfl, rfl⟩, fun _ i hi => staged_of_routine (forall_mem_setid 0 0 i hi), ih⟩

theorem forall_mem_startSetup (a : StartArgs) : ∀ i ∈ startSetup a, i.routine = true := by
  simp only [startSetup, List.flatten_cons, List.flatten_nil, List.append_nil,
    List.forall_mem_append, List.forall_mem_singleton, forall_mem_onlyIf]
  exact ⟨forall_mem_setupStdio _ _ _, fun _ => rfl, fun _ => rfl, forall_mem_setUser _,
    fun _ => rfl, forall_mem_setCapabilities _, fun _ => rfl⟩

theorem forall_mem_enterMountNamespace (fd : Option RawFd) :
    ∀ i ∈ enterMountNamespace fd, i.staged = false := by
  cases fd with
  | none => exact List.forall_mem_nil _
  | some fd =>
    rw [enterMountNamespace, List.forall_mem_cons, List.forall_mem_singleton]
    exact ⟨rfl, rfl⟩

/-- What the container process does once the agent has run the prestart hooks. -/
def StartArgs.enterRoot (a : StartArgs) : List Instr := List.flatten
  [[.call (.close "crfd")], enterMountNamespace a.mountFd,
    onlyIf (.newNs ∈ a.toNew)
      [.call a.switchRoot, .call (.setSysctls a.linux.sysctl), .call (.chdir "/")]]

theorem forall_mem_enterRoot (a : StartArgs) : ∀ i ∈ a.enterRoot, i.staged = false := by
  have hswitch : Instr.staged (.call a.switchRoot) = false := by
    rw [StartArgs.switchRoot]
    split
    · rfl
    · rfl
  simp only [StartArgs.enterRoot, List.flatten_cons, List.flatten_nil, List.append_nil,
    List.forall_mem_append, List.forall_mem_cons, List.not_mem_nil, IsEmpty.forall_iff,
    implies_true, and_true, forall_mem_onlyIf]
  exact ⟨rfl, forall_mem_enterMountNamespace _, fun _ => ⟨hswitch, rfl, rfl⟩⟩

/-- The container process around the handshake with the agent. -/
theorem containerProgram_init (r : SyncRun) (hi : r.args.p.init = true) :
    ∃ pre, r.programOf r.container = pre ++ writeSync .pfd .prestart 0 ::
      .read .crfd .prestartDone :: (r.args.enterRoot ++ startSetup r.args) := by
  have hc : ∃ pre, joinNamespacesContainer r.args ++ startSetup r.args =
      pre ++ writeSync .pfd .prestart 0 :: .read .crfd .prestartDone ::
        (r.args.enterRoot ++ startSetup r.args) := by
    refine ⟨List.flatten [onlyIf r.args.pidns [.call (.close "phfd")],
      onlyIf (.newUts ∈ r.args.toNew) [.call (.sethostname r.args.hostname)],
      [.call (.canonicalize r.args.root.path), .call .rootToStr],
      onlyIf (.newNs ∈ r.args.toNew) [.call (.initRootfs r.args.bindDevice)],
      onlyIf r.args.pidns [.read .chfd .handover], [.call (.close "chfd")]], ?_⟩
    simp [joinNamespacesContainer, StartArgs.enterRoot, StartArgs.switchRoot, onlyIf, hi]
  obtain ⟨pre, hc⟩ := hc
  rw [SyncRun.container]
  split
  · rename_i hn
    exact ⟨pre, by rw [SyncRun.programOf, SyncRun.secondProgram, onlyIf, if_pos hn, hc]⟩
  · rename_i hn
    refine ⟨joinNamespacesChild r.args ++ pre, ?_⟩
    rw [SyncRun.programOf, SyncRun.firstProgram, if_neg hn, hc, List.append_assoc]

/-- What the first child does once the agent has let it go on. -/
def SyncRun.resumed (r : SyncRun) : List Instr := List.flatten
  [onlyIf r.args.userns (setid 0 0), joinLoop r.args.toJoin,
    [.call (.unshare (r.args.toNew.erase .newUser)), .call .pipe2],
    if r.args.pidns then joinNamespacesRelay r.secondPid
    else joinNamespacesContainer r.args ++ startSetup r.args]

theorem firstProgram_resume (r : SyncRun) : ∃ pre, r.firstProgram =
    pre ++ writeSync .pfd .setup 0 :: .read .crfd .resume :: r.resumed := by
  refine ⟨List.flatten [[.call (.close "pfd"), .call (.close "pwfd")],
    processLimits r.args.process, onlyIf r.args.userns [.call (.unshare {.newUser})]], ?_⟩
  simp [SyncRun.firstProgram, joinNamespacesChild, SyncRun.resumed]

/-- The instruction is a call of the first kind. -/
def Instr.limits : Instr → Bool
  | .call c => c.limits
  | _ => false

theorem limits_of_staged (h : x.staged = false) : x.limits = false := by
  cases x with
  | call c =>
    rw [Instr.staged, Bool.or_eq_false_iff, Bool.or_eq_false_iff] at h
    exact h.1.1
  | _ => rfl

theorem admits_of_staged (h : x.staged = false) (hc : c.admits = true) : x ≠ .call c := by
  rintro rfl
  rw [Instr.staged, hc, Bool.or_true] at h
  cases h

theorem populates_of_staged (h : x.staged = false) (hc : c.populates = true) : x ≠ .call c := by
  rintro rfl
  rw [Instr.staged, hc, Bool.or_true] at h
  cases h

theorem limits_container (a : StartArgs) : ∀ i ∈ joinNamespacesContainer a, i.limits = false := by
  have hroot : ∀ i ∈ a.enterRoot, i.limits = false := fun i hi =>
    limits_of_staged (forall_mem_enterRoot a i hi)
  simp only [StartArgs.enterRoot, List.flatten_cons, List.flatten_nil, List.append_nil,
    List.forall_mem_append, List.forall_mem_cons, List.not_mem_nil, IsEmpty.forall_iff,
    implies_true, and_true, forall_mem_onlyIf] at hroot
  simp only [joinNamespacesContainer, List.flatten_cons, List.flatten_nil, List.append_nil,
    List.forall_mem_append, List.forall_mem_cons, List.not_mem_nil, IsEmpty.forall_iff,
    implies_true, and_true, forall_mem_onlyIf]
  exact ⟨fun _ => rfl, fun _ => rfl, ⟨rfl, rfl⟩, fun _ => rfl, fun _ => rfl, rfl,
    fun _ => ⟨rfl, rfl⟩, hroot⟩

/-- A process that is let go on has its limits. -/
theorem limits_resumed (r : SyncRun) (hc : c.limits = true) : .call c ∉ r.resumed := by
  have hunshare : Instr.limits (.call (.unshare (r.args.toNew.erase .newUser))) = false := by
    apply decide_eq_false
    intro he
    have hmem : CloneFlag.newUser ∈ r.args.toNew.erase .newUser := by
      rw [he]
      exact Finset.mem_singleton_self _
    exact Finset.notMem_erase _ _ hmem
  have hrest : ∀ i ∈ (if r.args.pidns then joinNamespacesRelay r.secondPid
      else joinNamespacesContainer r.args ++ startSetup r.args), i.limits = false := by
    split
    · simp only [joinNamespacesRelay, List.forall_mem_cons, List.not_mem_nil, IsEmpty.forall_iff,
        implies_true, and_true]
      exact ⟨rfl, rfl, rfl, rfl, rfl, rfl⟩
    · rw [List.forall_mem_append]
      exact ⟨limits_container r.args, fun i hi =>
        limits_of_staged (staged_of_routine (forall_mem_startSetup r.args i hi))⟩
  have hall : ∀ i ∈ r.resumed, i.limits = false := by
    simp only [SyncRun.resumed, List.flatten_cons, List.flatten_nil, List.append_nil,
      List.forall_mem_append, List.forall_mem_cons, List.not_mem_nil, IsEmpty.forall_iff,
      implies_true, and_true, forall_mem_onlyIf]
    exact ⟨fun _ i hi => limits_of_staged (staged_of_routine (forall_mem_setid 0 0 i hi)),
      fun i hi => limits_of_staged (forall_mem_joinLoop _ i hi), ⟨hunshare, rfl⟩, hrest⟩
  intro hmem
  exact Bool.false_ne_true ((hall _ hmem).symm.trans hc)

/-- What the agent does once it has let the first child go on. -/
theorem agentProgram_resume (r : SyncRun) : ∃ pre post, r.agentProgram =
    pre ++ writeSync .crfd .resume 0 :: post ∧ ∀ i ∈ post, i.staged = false := by
  have hhooks (kind : HookKind) : ∀ i ∈ Hooks.run r.args.hooks kind, i.staged = false :=
    fun i hi => staged_of_routine (forall_mem_hooks i hi)
  refine ⟨List.flatten [[.call (.close "cfd"), .call (.close "crfd"), .read .pfd .setup],
    onlyIf r.args.userns
      [.call (.writeMappings "uid_map" r.args.linux.uidMappings),
        .call (.writeMappings "gid_map" r.args.linux.gidMappings)],
    onlyIf (r.args.p.init ∧ r.args.linux.resources.isSome) [.call .setCgroups],
    onlyIf r.args.linux.resources.isSome [.call .applyCgroups]], List.flatten
    [onlyIf r.args.pidns [.read .pfd .pid, writeSync .crfd .pidAck 0],
      onlyIf r.args.p.init [.read .pfd .prestart],
      onlyIf r.args.p.init (Hooks.run r.args.hooks .prestart),
      onlyIf r.args.p.init [writeSync .crfd .prestartDone 0, .read .pfd .poststart],
      onlyIf r.args.p.init (Hooks.run r.args.hooks .poststart),
      [.call (.close "pfd"), .call (.close "pwfd")]], ?_, ?_⟩
  · simp [SyncRun.agentProgram, joinNamespacesParent]
  · simp only [List.flatten_cons, List.flatten_nil, List.append_nil, List.forall_mem_append,
      List.forall_mem_cons, List.not_mem_nil, IsEmpty.forall_iff, implies_true, and_true,
      forall_mem_onlyIf]
    exact ⟨fun _ => ⟨rfl, rfl⟩, fun _ => rfl, fun _ => hhooks _, fun _ => ⟨rfl, rfl⟩,
      fun _ => hhooks _, rfl, rfl⟩

/-- A word on its way from the children is still to be read. -/
theorem SyncState.Sound.unread_pfd (h : s.Sound r)
    (hw : .write .pfd (r.word token) ∈ s.first ∨ .write .pfd (r.word token) ∈ s.second) :
    .read .pfd token ∈ s.agent := by
  have hmem : r.word token ∈ (reads .pfd s.agent).map r.word := by
    rw [← h.pfd]
    rcases hw with hw | hw
    · exact List.mem_append_left _ (List.mem_append_right _ (mem_writes.2 hw))
    · exact List.mem_append_right _ (mem_writes.2 hw)
  obtain ⟨token', ht, he⟩ := List.mem_map.1 hmem
  have htoken : token' = token := congrArg SyncWord.token he
  rw [← htoken]
  exact mem_reads.1 ht

/-- A word on its way from the agent is still to be read. -/
theorem SyncState.Sound.unread_crfd (h : s.Sound r)
    (hw : .write .crfd (r.word token) ∈ s.agent) :
    .read .crfd token ∈ s.first ∨ .read .crfd token ∈ s.second := by
  have hmem : r.word token ∈ (reads .crfd s.first ++ reads .crfd s.second).map r.word := by
    rw [← h.crfd]
    exact List.mem_append_right _ (mem_writes.2 hw)
  obtain ⟨token', ht, he⟩ := List.mem_map.1 hmem
  have htoken : token' = token := congrArg SyncWord.token he
  rw [← htoken]
  rcases List.mem_append.1 ht with ht | ht
  · exact .inl (mem_reads.1 ht)
  · exact .inr (mem_reads.1 ht)

theorem init_of_hook {kind : HookKind} {h : Hook} (hm : .hook kind h ∈ r.agentProgram) :
    r.args.p.init = true := by
  have hrank : ∃ n, (Instr.hook kind h).rank = some n := by
    cases kind with
    | prestart => exact ⟨7, rfl⟩
    | poststart => exact ⟨10, rfl⟩
  obtain ⟨n, hn⟩ := hrank
  have hm := mem_ranked hm hn
  rw [ranked_agentProgram] at hm
  by_contra hi
  simp [onlyIf, hi, writeSync] at hm

def Instr.forks : Instr → Bool
  | .fork => true
  | _ => false

theorem fork_notMem_agent : .fork ∉ r.agentProgram := by
  have hhooks (kind : HookKind) : ∀ i ∈ Hooks.run r.args.hooks kind, i.forks = false := by
    intro i hi
    obtain ⟨h, rfl⟩ := mem_hooks hi
    rfl
  have hall : ∀ i ∈ r.agentProgram, i.forks = false := by
    simp only [SyncRun.agentProgram, joinNamespacesParent, List.flatten_cons, List.flatten_nil,
      List.append_nil, List.forall_mem_append, List.forall_mem_cons, List.not_mem_nil,
      IsEmpty.forall_iff, implies_true, and_true,
      forall_mem_onlyIf]
    exact ⟨⟨rfl, rfl, rfl⟩, fun _ => ⟨rfl, rfl⟩, fun _ => rfl, fun _ => rfl, rfl,
      fun _ => ⟨rfl, rfl⟩, fun _ => rfl, fun _ => hhooks _, fun _ => ⟨rfl, rfl⟩,
      fun _ => hhooks _, rfl, rfl⟩
  exact fun hm => Bool.false_ne_true (hall _ hm).symm

theorem fork_notMem_second : .fork ∉ r.secondProgram := by
  intro hm
  rcases mem_containerRanked (mem_secondProgram hm rfl).2 with he | he | he | he <;> cases he

/-- A fork is not done twice. -/
theorem SyncRun.forked_once (hp : r.args.process = some proc) (h : r.system.Reachable s) :
    s.Sound r ∧ (s.forked = true → .fork ∉ s.first) := by
  apply h.invariant
  · rintro s rfl
    exact ⟨r.sound_start hp, fun hf => absurd hf Bool.false_ne_true⟩
  · intro s p t ⟨hs, hf⟩ _ ht
    have hst : t.Sound r := by
      cases p with
      | agent => exact hs.agent_step ht
      | first => exact hs.first_step hp ht
      | second => exact hs.second_step hp ht
    refine ⟨hst, ?_⟩
    obtain ⟨-, i, rest, hprog, hcase⟩ := SyncState.step_cases ht
    have hsuf := hs.program_suffix p
    rw [hprog] at hsuf
    have hadvance (js : List Instr) (hjs : js <:+ i :: rest) (hforked : s.forked = true) :
        .fork ∉ (s.advance p js).first := by
      cases p with
      | agent => exact hf hforked
      | first =>
        have hprog : s.first = i :: rest := hprog
        intro hm
        apply hf hforked
        rw [hprog]
        exact hjs.subset hm
      | second => exact hf hforked
    rcases hcase with ⟨c, token, w, ws, rfl, -, rfl⟩ | ⟨c, w, rfl, rfl⟩ | ⟨rfl, rfl⟩ |
      ⟨code, rfl, rfl⟩ | ⟨-, rfl⟩
    · rw [SyncState.receive_forked, SyncState.receive_first]
      intro hforked
      cases p <;> exact hadvance rest (List.suffix_cons _ _) hforked
    · intro hforked
      cases p <;> exact hadvance rest (List.suffix_cons _ _) hforked
    · intro _ hm
      cases p with
      | agent => exact fork_notMem_agent (hsuf.subset List.mem_cons_self)
      | first =>
        have hb := before_of_suffix (firstProgram_pairwise r hp) hsuf hm 2 rfl 2 rfl
        rcases hb with hb | ⟨-, hb⟩
        · exact absurd hb (by decide)
        · exact absurd hb (by decide)
      | second => exact fork_notMem_second (hsuf.subset List.mem_cons_self)
    · intro hforked
      cases p <;> exact hadvance [] List.nil_suffix hforked
    · intro hforked
      cases p <;> exact hadvance rest (List.suffix_cons _ _) hforked

/-- The container process has its switch of roots before it as long as it waits for the agent. -/
theorem SyncState.Sound.outside (h : s.Sound r) (hp : r.args.process = some proc)
    (hm : .hook .prestart hk ∈ s.agent) (hns : .newNs ∈ r.args.toNew) :
    .call r.args.switchRoot ∈ s.program r.container := by
  have hi := init_of_hook (h.agent.subset hm)
  obtain ⟨pre, hprog⟩ := containerProgram_init r hi
  have hread : .read .crfd .prestartDone ∈ s.program r.container := by
    by_contra hread
    exact h.prestart_done hp hi hread hk hm
  have hposition : r.programOf r.container = (pre ++ [writeSync .pfd .prestart 0]) ++
      .read .crfd .prestartDone :: (r.args.enterRoot ++ startSetup r.args) := by
    rw [hprog, List.append_assoc, List.singleton_append]
  have hmem : .call r.args.switchRoot ∈ r.args.enterRoot := by
    simp [StartArgs.enterRoot, onlyIf, hns]
  rcases suffix_position hposition (h.program_suffix _) with hs | hs
  · exact hs.subset (List.mem_cons_of_mem _ (List.mem_append_left _ hmem))
  · have hsuf : .read .crfd .prestartDone :: (r.args.enterRoot ++ startSetup r.args) <:+
        r.programOf r.container := ⟨_, hposition.symm⟩
    have hb := before_of_suffix (r.programOf_pairwise hp _) hsuf (hs.subset hread) 8 rfl 8 rfl
    rcases hb with hb | ⟨-, hb⟩
    · exact absurd hb (by decide)
    · exact absurd hb (by decide)

theorem SyncState.Sound.populated (h : s.Sound r)
    (hprog : s.agent = .hook .prestart hk :: rest) (hc : c.populates = true) :
    .call c ∉ s.program r.container := by
  have hagent := h.agent
  rw [hprog] at hagent
  have hi := init_of_hook (hagent.subset List.mem_cons_self)
  obtain ⟨pre, hcontainer⟩ := containerProgram_init r hi
  have hread : .read .pfd .prestart ∉ s.agent := by
    rw [hprog]
    intro hm
    rcases List.mem_cons.1 hm with he | hm
    · cases he
    · rcases before_of_suffix (agentProgram_pairwise r) hagent hm 7 rfl 6 rfl with hb | ⟨hb, -⟩
      · exact absurd hb (by decide)
      · exact absurd hb (by decide)
  have hwrite : writeSync .pfd .prestart 0 ∉ s.program r.container := by
    intro hm
    apply hread
    rw [SyncRun.container] at hm
    split at hm
    · exact h.unread_pfd (.inr hm)
    · exact h.unread_pfd (.inl hm)
  have hpast := suffix_of_notMem hcontainer (h.program_suffix _) hwrite
  intro hm
  rcases List.mem_cons.1 (hpast.subset hm) with he | hm
  · cases he
  · rcases List.mem_append.1 hm with hm | hm
    · exact populates_of_staged (forall_mem_enterRoot _ _ hm) hc rfl
    · exact populates_of_staged (staged_of_routine (forall_mem_startSetup _ _ hm)) hc rfl

/-- The word that the agent waits for before poststart hooks is the last of the container process.
-/
theorem SyncState.Sound.complete (h : s.Sound r) (hp : r.args.process = some proc)
    (hprog : s.agent = .hook .poststart hk :: rest) : s.program r.container = [] := by
  have hagent := h.agent
  rw [hprog] at hagent
  have hi := init_of_hook (hagent.subset List.mem_cons_self)
  obtain ⟨pre, hcontainer⟩ := containerProgram_init r hi
  have hsetup : ∃ setup, startSetup r.args = setup ++ [writeSync .pfd .poststart 0] := by
    refine ⟨List.flatten [setupStdio r.args.p r.args.master r.args.slave,
      onlyIf (.newNs ∈ r.args.toNew) [.call .finishRootfs],
      onlyIf (r.args.p.oci.cwd ≠ "") [.call (.chdir r.args.p.oci.cwd)],
      setUser r.args.p.oci.user, onlyIf r.args.p.oci.noNewPrivileges [.call .setNoNewPrivileges],
      setCapabilities r.args.p.oci.capabilities], ?_⟩
    simp [startSetup, onlyIf, hi]
  obtain ⟨setup, hsetup⟩ := hsetup
  have hlast : r.programOf r.container = (pre ++ writeSync .pfd .prestart 0 ::
      .read .crfd .prestartDone :: (r.args.enterRoot ++ setup)) ++
        [writeSync .pfd .poststart 0] := by
    rw [hcontainer, hsetup]
    simp
  have hwrite := h.poststart_last hp hprog .pfd ⟨.poststart, 0⟩
  exact List.suffix_nil.1 (suffix_of_notMem hlast (h.program_suffix _) hwrite)

theorem SyncState.Sound.limited (h : s.Sound r) (hc : c.limits = true) (hm : .call c ∈ s.first) :
    .read .pfd .setup ∈ s.agent := by
  obtain ⟨pre, hprog⟩ := firstProgram_resume r
  rcases suffix_position hprog h.first with hs | hs
  · exact h.unread_pfd (.inl (hs.subset List.mem_cons_self))
  · rcases List.mem_cons.1 (hs.subset hm) with he | hm
    · cases he
    · exact absurd hm (limits_resumed r hc)

theorem SyncState.Sound.admitted (h : s.Sound r) (hc : c.admits = true)
    (hm : .call c ∈ s.agent) : .read .crfd .resume ∈ s.first := by
  obtain ⟨pre, post, hprog, hpost⟩ := agentProgram_resume r
  rcases suffix_position hprog h.agent with hs | hs
  · have hw : .write .crfd (r.word .resume) ∈ s.agent := hs.subset List.mem_cons_self
    rcases h.unread_crfd hw with hr | hr
    · exact hr
    · rcases mem_containerRanked (mem_secondProgram (h.second.subset hr) rfl).2 with
        he | he | he | he <;> cases he
  · exact absurd rfl (admits_of_staged (hpost _ (hs.subset hm)) hc)

end

/-- A start keeps its order in every interleaving of the agent and the two children. -/
theorem joinNamespaces_ordered (r : SyncRun) (hp : r.args.process = some proc)
    (h : r.system.Reachable s) : s.Ordered r := by
  obtain ⟨hs, hfork⟩ := SyncRun.forked_once hp h
  refine ⟨fun c hc hm => hs.limited hc hm, fun c hc hm => ?_,
    fun hk rest hprog c hc => hs.populated hprog hc,
    fun hk hm hns => hs.outside hp hm hns, fun hk rest hprog => hs.complete hp hprog⟩
  have hread := hs.admitted hc hm
  refine ⟨hread, fun hn => ?_⟩
  by_contra hforked
  have hfirst : .fork ∈ r.firstProgram := by
    have hmem : .fork ∈ ranked r.firstProgram := by
      rw [ranked_firstProgram r hp, if_pos hn]
      simp
    exact (List.mem_filter.1 hmem).1
  exact hfork (Bool.not_eq_false _ ▸ hforked) (mem_of_suffix (firstProgram_pairwise r hp) hs.first
    hread hfirst (m := 1) rfl (n := 2) rfl (by decide))

/-- The agent is about to map the ids of the first child, which waits for it. -/
theorem joinNamespaces_ordered_pod : ∃ s,
    (SyncRun.mk podStart 100 101).system.run (SyncRun.mk podStart 100 101).start
      (List.replicate 4 .first ++ List.replicate 3 .agent) = some s ∧
    .call (.writeMappings "uid_map" []) ∈ s.agent ∧ s.Ordered (SyncRun.mk podStart 100 101) := by
  obtain ⟨s, hrun, hm⟩ : ∃ s, (SyncRun.mk podStart 100 101).system.run
      (SyncRun.mk podStart 100 101).start (List.replicate 4 .first ++ List.replicate 3 .agent) =
        some s ∧ .call (.writeMappings "uid_map" []) ∈ s.agent := ⟨_, rfl, List.mem_cons_self⟩
  exact ⟨s, hrun, hm, joinNamespaces_ordered _ rfl (System.reachable_of_run rfl hrun)⟩

end KataAgent
