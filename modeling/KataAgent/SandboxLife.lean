import KataAgent.FifoHang

namespace KataAgent
open Transition
set_option autoImplicit true

/-- A `DestroySandbox` call, which holds the sandbox mutex. -/
structure Destroyer where
  /-- The container whose `destroy` is past its `oci_state`, with the processes to come. -/
  current : Option (String × List Pid)
  /-- The containers to come, each with its processes, as the maps list them. -/
  rest : List (String × List Pid)
  /-- The signals so far, each with the child of the agent that it went to, if it was one. -/
  signals : List (String × Pid × Option Nat)
  /-- It waits for a poststop hook that never ends. -/
  stuck : Bool
  deriving DecidableEq

/-- A call that got through, with the agent as it was then. -/
structure Destruction where
  runtime : Runtime
  signals : List (String × Pid × Option Nat)

/-- The agent up to the end of its `main`. -/
structure SandboxLife where
  agent : FifoRuntime
  destroyer : Option Destroyer
  sender : Bool
  /-- The messages in the channel. -/
  messages : Nat
  /-- The thread that `main` joins is past its `recv`. -/
  ended : Bool
  destroyed : List Destruction

inductive SandboxAction where
  | base (a : FifoAction)
  | destroySandbox (order : List (String × List Pid))
  | enter (ok : Bool)
  /-- A signal, with the child that has the pid, or none if another process of the guest has it. -/
  | kill (child : Option Nat)
  /-- A signal that finds no process. -/
  | esrch
  /-- The poststop hooks. -/
  | leave (ok : Bool)
  | hang
  | send
  | recv
  deriving DecidableEq

/-- An order in which the maps may be walked. -/
def Runtime.Lists (s : Runtime) (order : List (String × List Pid)) : Prop :=
  (order.map Prod.fst).Nodup ∧ (order.map Prod.fst).toFinset = s.containers.keys ∧
    ∀ x ∈ order, x.2.Nodup ∧
      ∃ processes ∈ s.containers.lookup x.1, x.2.toFinset = processes.keys

instance {s : Runtime} {order : List (String × List Pid)} : Decidable (s.Lists order) :=
  inferInstanceAs (Decidable (_ ∧ _ ∧ ∀ _ ∈ _, _ ∧ ∃ _ ∈ _, _))

/-- The child has the pid, or no child has it. -/
def Runtime.Takes (s : Runtime) (pid : Pid) : Option Nat → Prop
  | some k => ∃ c ∈ s.children.lookup k, c.phase.unreaped ∧ c.pid = pid
  | none => ¬ s.pidTaken pid

instance {s : Runtime} {pid : Pid} : (child : Option Nat) → Decidable (s.Takes pid child)
  | some _ => inferInstanceAs (Decidable (∃ _ ∈ _, _))
  | none => inferInstanceAs (Decidable (¬ _))

/-- The `unwrap` of an error, with the mutex held. -/
def SandboxLife.unwind (s : SandboxLife) : SandboxLife :=
  { s with
    agent := { s.agent with runtime := { s.agent.runtime with poisoned := true } }
    destroyer := none }

def SandboxLife.base (s : SandboxLife) (a : FifoAction) : Option SandboxLife :=
  if s.destroyer ≠ none ∧ a.locked = true then none
  else (s.agent.step a).map fun r => { s with agent := r }

def SandboxLife.destroySandbox (s : SandboxLife) (order : List (String × List Pid)) :
    Option SandboxLife :=
  if s.agent.runtime.lockable ∧ s.agent.execing = none ∧ s.destroyer = none ∧
      s.agent.runtime.Lists order then
    some { s with destroyer := some ⟨none, order, [], false⟩ }
  else none

def SandboxLife.enter (s : SandboxLife) (ok : Bool) : Option SandboxLife :=
  match s.destroyer with
  | some ⟨none, x :: rest, signals, false⟩ =>
    if ok then some { s with destroyer := some ⟨some x, rest, signals, false⟩ } else some s.unwind
  | _ => none

def SandboxLife.kill (s : SandboxLife) (child : Option Nat) : Option SandboxLife :=
  match s.destroyer with
  | some ⟨some (c, pid :: pids), rest, signals, false⟩ =>
    if s.agent.runtime.Takes pid child then
      some { s with
        destroyer := some ⟨some (c, pids), rest, signals ++ [(c, pid, child)], false⟩ }
    else none
  | _ => none

def SandboxLife.esrch (s : SandboxLife) : Option SandboxLife :=
  match s.destroyer with
  | some ⟨some (_, pid :: _), _, _, false⟩ =>
    if s.agent.runtime.pidTaken pid then none else some s.unwind
  | _ => none

def SandboxLife.leave (s : SandboxLife) (ok : Bool) : Option SandboxLife :=
  match s.destroyer with
  | some ⟨some (_, []), rest, signals, false⟩ =>
    if ok then some { s with destroyer := some ⟨none, rest, signals, false⟩ } else some s.unwind
  | _ => none

def SandboxLife.hang (s : SandboxLife) : Option SandboxLife :=
  match s.destroyer with
  | some ⟨some (c, []), rest, signals, false⟩ =>
    some { s with destroyer := some ⟨some (c, []), rest, signals, true⟩ }
  | _ => none

/-- The message to `main`, from which the sender is gone after the first time. -/
def SandboxLife.send (s : SandboxLife) : Option SandboxLife :=
  match s.destroyer with
  | some ⟨none, [], signals, false⟩ =>
    if s.sender then
      some { s with
        destroyer := none
        sender := false
        messages := s.messages + 1
        destroyed := s.destroyed ++ [⟨s.agent.runtime, signals⟩] }
    else some s.unwind
  | _ => none

def SandboxLife.recv (s : SandboxLife) : Option SandboxLife :=
  if s.ended = false ∧ 0 < s.messages then
    some { s with
      messages := s.messages - 1
      ended := true }
  else none

def SandboxLife.step (s : SandboxLife) : SandboxAction → Option SandboxLife
  | .base a => s.base a
  | .destroySandbox order => s.destroySandbox order
  | .enter ok => s.enter ok
  | .kill child => s.kill child
  | .esrch => s.esrch
  | .leave ok => s.leave ok
  | .hang => s.hang
  | .send => s.send
  | .recv => s.recv

def sandboxLife : System SandboxLife SandboxAction where
  init s := fifoRuntime.init s.agent ∧ s = ⟨s.agent, none, true, 0, false, []⟩
  step := SandboxLife.step

variable {r r' : Runtime} {s t : SandboxLife} {k : Nat}

/-- The child is reaped. -/
def Runtime.Gone (r : Runtime) (k : Nat) : Prop :=
  ∃ c, r.children.lookup k = some c ∧ c.phase.unreaped = false

/-- No two children that are not reaped have one pid. -/
def Runtime.PidsOnce (r : Runtime) : Prop :=
  ∀ k k' c c', r.children.lookup k = some c → r.children.lookup k' = some c' →
    c.phase.unreaped = true → c'.phase.unreaped = true → c.pid = c'.pid → k = k'

theorem Runtime.pidTaken_of {c : Child} (hk : r.children.lookup k = some c)
    (hu : c.phase.unreaped = true) : r.pidTaken c.pid :=
  ⟨k, Table.mem_keys_iff.2 ⟨c, hk⟩, c, hk, hu, rfl⟩

theorem Runtime.PidsOnce.step (hr : r.PidsOnce) (hc : r.ChildEffect a r') : r'.PidsOnce := by
  intro k k' c c' hk hk' hu hu' hp
  cases hc with
  | same h =>
    rw [h] at hk hk'
    exact hr k k' c c' hk hk' hu hu' hp
  | @moves j b phase hj hm h =>
    -- a child that is not reaped now was not reaped before
    have hold : ∀ x d, r'.children.lookup x = some d → d.phase.unreaped = true →
        ∃ b, r.children.lookup x = some b ∧ b.phase.unreaped = true ∧ b.pid = d.pid := by
      intro x d hx hd
      rw [h, Table.lookup_update] at hx
      split at hx
      · rename_i hxj
        rw [hj] at hx
        cases hx
        exact ⟨b, hxj ▸ hj, hm.unreaped hd, rfl⟩
      · exact ⟨d, hx, hd, rfl⟩
    obtain ⟨d, hd, hdu, hdp⟩ := hold k c hk hu
    obtain ⟨d', hd', hdu', hdp'⟩ := hold k' c' hk' hu'
    exact hr k k' d d' hd hd' hdu hdu' ((hdp.trans hp).trans hdp'.symm)
  | new hj _ _ h hfree =>
    rw [h] at hk hk'
    rcases Table.of_lookup_insert hk with ⟨hkj, hcb⟩ | ⟨-, hk⟩
    · rcases Table.of_lookup_insert hk' with ⟨hkj', -⟩ | ⟨-, hk'⟩
      · exact hkj.trans hkj'.symm
      · refine absurd (Runtime.pidTaken_of hk' hu') ?_
        rw [← hp, hcb]
        exact hfree
    · rcases Table.of_lookup_insert hk' with ⟨-, hcb⟩ | ⟨-, hk'⟩
      · refine absurd (Runtime.pidTaken_of hk hu) ?_
        rw [hp, hcb]
        exact hfree
      · exact hr k k' c c' hk hk' hu hu' hp

theorem Runtime.PidsOnce.of_reachable (h : processRuntime.Reachable r) : r.PidsOnce := by
  have hr : processRuntime.Reachable r ∧ r.PidsOnce := by
    apply h.invariant (I := fun r => processRuntime.Reachable r ∧ r.PidsOnce)
    · intro s h0
      refine ⟨.init h0, ?_⟩
      obtain ⟨files, -, rfl⟩ := h0
      intro k k' c c' hk
      cases hk
    · intro s a t hs _ hst
      exact ⟨.step hs.1 trivial hst,
        hs.2.step ((Runtime.Started.of_reachable hs.1).childEffect hst)⟩
  exact hr.2

theorem Runtime.Gone.step (hg : r.Gone k) (hc : r.ChildEffect a r') : r'.Gone k := by
  obtain ⟨c, hk, hu⟩ := hg
  cases hc with
  | same h => exact ⟨c, h ▸ hk, hu⟩
  | @moves j b phase hj hm h =>
    rw [Runtime.Gone, h]
    by_cases hkj : k = j
    · rw [hkj] at hk ⊢
      cases hj.symm.trans hk
      refine ⟨_, by rw [Table.lookup_update, if_pos rfl, hj]; rfl, ?_⟩
      exact Bool.eq_false_iff.2 fun h => Bool.eq_false_iff.1 hu (hm.unreaped h)
    · exact ⟨c, by rw [Table.lookup_update, if_neg hkj]; exact hk, hu⟩
  | new hj _ _ h hfree =>
    rw [Runtime.Gone, h]
    refine ⟨c, ?_, hu⟩
    rw [Table.lookup_insert, if_neg]
    · exact hk
    · rintro rfl
      cases hj.symm.trans hk

/-- The processes of the agent's containers that are still to get a signal are in the lists. -/
def Destroyer.Covers (d : Destroyer) (r : Runtime) : Prop :=
  ∀ c p e, r.entry c p = some e →
    (∃ pids, (c, pids) ∈ d.current.toList ++ d.rest ∧ p ∈ pids) ∨
    ∃ child, (c, p, child) ∈ d.signals ∧ (child = some e.owner ∨ r.Gone e.owner)

/-- Every process of every container got its signal, or was reaped before; then the signal went to
whoever had its pid. -/
def Destruction.Complete (d : Destruction) : Prop :=
  ∀ c p e, d.runtime.entry c p = some e →
    ∃ child, (c, p, child) ∈ d.signals ∧ (child = some e.owner ∨ d.runtime.Gone e.owner)

/-- The message was not sent, or once. -/
inductive SandboxLife.Sent (s : SandboxLife) : Prop where
  | unsent (sender : s.sender = true) (messages : s.messages = 0) (ended : s.ended = false)
      (destroyed : s.destroyed = [])
  | once {d : Destruction} (sender : s.sender = false)
      (messages : s.messages = if s.ended then 0 else 1) (destroyed : s.destroyed = [d])
      (complete : d.Complete)

structure SandboxLife.Sound (s : SandboxLife) : Prop where
  base : fifoRuntime.Reachable s.agent
  held : ∀ {d}, s.destroyer = some d → s.agent.runtime.lockable ∧ s.agent.execing = none ∧
    d.Covers s.agent.runtime
  sent : s.Sent

/-- A signal either goes to the registered process, or this one was reaped. -/
theorem Runtime.takes_owner (h : processRuntime.Reachable r) (he : r.entry c p = some e)
    {child : Option Nat} (hc : r.Takes p child) : child = some e.owner ∨ r.Gone e.owner := by
  obtain ⟨ch, hch, hpid, -⟩ := (Runtime.Started.of_reachable h).entry he
  by_cases hu : ch.phase.unreaped = true
  · left
    cases child with
    | none => exact absurd (hpid ▸ Runtime.pidTaken_of hch hu) hc
    | some k =>
      obtain ⟨ch', hk, hu', hp'⟩ := hc
      have hpids := Runtime.PidsOnce.of_reachable h
      rw [hpids k e.owner ch' ch hk hch hu' hu (hp'.trans hpid.symm)]
  · exact .inr ⟨ch, hch, Bool.eq_false_iff.2 hu⟩

variable {f f' : FifoRuntime}

/-- What needs no mutex leaves alone what is under it. -/
theorem FifoRuntime.step_unlocked {a : FifoAction} (ha : a.locked = false)
    (h : f.step a = some f') : f'.execing = f.execing ∧
      (f'.runtime = f.runtime ∨ ∃ b, b.unlocked = true ∧ f.runtime.step b = some f'.runtime) := by
  have hfirst {f' k due g phase} (h : f.firstStep k due g phase = some f') :
      f'.execing = f.execing ∧ f'.runtime = f.runtime := by
    obtain ⟨-, p, -, rfl⟩ := FifoRuntime.firstStep_eq_some.1 h
    exact ⟨rfl, rfl⟩
  cases a with
  | base b =>
    have hb : b.unlocked = true := by simpa [FifoAction.locked] using ha
    obtain ⟨-, -, r, hr, rfl⟩ := FifoRuntime.base_eq_some h
    rw [FifoRuntime.closeEnds_eq]
    exact ⟨rfl, .inr ⟨b, hb, hr⟩⟩
  | firstOpen k =>
    rw [FifoRuntime.step, FifoRuntime.firstOpen] at h
    exact (hfirst h).imp_right .inl
  | firstOpened k =>
    rw [FifoRuntime.step, FifoRuntime.firstOpened] at h
    exact (hfirst h).imp_right .inl
  | firstRead k =>
    rw [FifoRuntime.step, FifoRuntime.firstRead] at h
    exact (hfirst h).imp_right .inl
  | firstExec k =>
    obtain ⟨u, hu, hexec, hf⟩ := FifoRuntime.firstExec_eq_some h
    obtain ⟨hx, hr⟩ := hfirst hu
    rw [hr] at hexec
    exact ⟨(congrArg FifoRuntime.execing hf).trans hx, .inr ⟨.exec k, rfl, hexec⟩⟩
  | _ => cases ha

/-- A panic under the mutex is none that the agent does not have otherwise. -/
theorem FifoRuntime.poison_reachable (h : fifoRuntime.Reachable f) (hl : f.runtime.lockable)
    (hx : f.execing = none) :
    fifoRuntime.Reachable { f with runtime := { f.runtime with poisoned := true } } := by
  obtain ⟨c, hc⟩ := Runtime.exists_poison hl
  refine .step (a := .base (.removeContainer c true)) h trivial ?_
  change f.base _ = _
  rw [FifoRuntime.base, if_neg]
  · exact congrArg (Option.map _) hc
  · rintro (hf | hf)
    · cases hf
    · exact hf.1 hx

theorem Destroyer.Covers.frame {d : Destroyer} (hd : d.Covers r)
    (hc : r'.containers = r.containers) (hg : ∀ k, r.Gone k → r'.Gone k) : d.Covers r' := by
  intro c p e he
  have he' : r.entry c p = some e := by
    rw [← he, Runtime.entry, Runtime.entry, hc]
  refine (hd c p e he').imp_right ?_
  rintro ⟨child, hm, hchild⟩
  exact ⟨child, hm, hchild.imp_right (hg e.owner)⟩

theorem SandboxLife.Sound.unwind (hs : s.Sound) (hd : s.destroyer = some d) :
    s.unwind.Sound := by
  obtain ⟨hl, hx, -⟩ := hs.held hd
  refine ⟨FifoRuntime.poison_reachable hs.base hl hx, fun h => (by cases h), ?_⟩
  cases hs.sent with
  | unsent h1 h2 h3 h4 => exact .unsent h1 h2 h3 h4
  | once h1 h2 h3 h4 => exact .once h1 h2 h3 h4

theorem SandboxLife.Sound.baseStep {a : FifoAction} (hs : s.Sound) (h : s.base a = some t) :
    t.Sound := by
  rw [SandboxLife.base, Option.ite_none_left_eq_some] at h
  obtain ⟨hlock, h⟩ := h
  obtain ⟨f, hf, rfl⟩ := Option.map_eq_some_iff.1 h
  constructor
  case base => exact .step hs.base trivial hf
  case held =>
    intro d hd
    obtain ⟨hl, hx, hcov⟩ := hs.held hd
    have ha : a.locked = false := by
      by_contra ha
      exact hlock ⟨fun h => (by cases h.symm.trans hd), Bool.eq_true_of_not_eq_false ha⟩
    obtain ⟨hex, hr | ⟨b, hb, hr⟩⟩ := FifoRuntime.step_unlocked ha hf
    · dsimp only
      rw [hr, hex]
      exact ⟨hl, hx, hcov⟩
    · have hchild := (FifoRuntime.Sound.of_reachable hs.base).started.childEffect hr
      refine ⟨Runtime.step_unlocked_lockable hb hr hl, hex.trans hx, ?_⟩
      exact hcov.frame (Runtime.step_unlocked hb hr) fun k hg => hg.step hchild
  case sent =>
    cases hs.sent with
    | unsent h1 h2 h3 h4 => exact .unsent h1 h2 h3 h4
    | once h1 h2 h3 h4 => exact .once h1 h2 h3 h4

theorem Runtime.Lists.covers {order : List (String × List Pid)} (h : r.Lists order) :
    Destroyer.Covers ⟨none, order, [], false⟩ r := by
  intro c p e he
  obtain ⟨processes, hc, hp⟩ := Runtime.entry_eq_some.1 he
  have hm : c ∈ (order.map Prod.fst).toFinset := h.2.1 ▸ Table.mem_keys_iff.2 ⟨processes, hc⟩
  obtain ⟨x, hx, rfl⟩ := List.mem_map.1 (List.mem_toFinset.1 hm)
  obtain ⟨-, processes', hc', hkeys⟩ := h.2.2 x hx
  cases hc.symm.trans hc'
  refine .inl ⟨x.2, hx, List.mem_toFinset.1 ?_⟩
  rw [hkeys]
  exact Table.mem_keys_iff.2 ⟨e, hp⟩

theorem SandboxLife.Sent.of_fields (hs : s.Sent) (h1 : t.sender = s.sender)
    (h2 : t.messages = s.messages) (h3 : t.ended = s.ended) (h4 : t.destroyed = s.destroyed) :
    t.Sent := by
  cases hs with
  | unsent k1 k2 k3 k4 => exact .unsent (h1.trans k1) (h2.trans k2) (h3.trans k3) (h4.trans k4)
  | once k1 k2 k3 k4 => exact .once (h1.trans k1) (h2.trans (h3 ▸ k2)) (h4.trans k3) k4

/-- A step of the call that gets on. -/
theorem SandboxLife.Sound.advance {d d' : Destroyer} (hs : s.Sound) (hd : s.destroyer = some d)
    (h : d.Covers s.agent.runtime → d'.Covers s.agent.runtime) :
    SandboxLife.Sound { s with destroyer := some d' } := by
  obtain ⟨hl, hx, hcov⟩ := hs.held hd
  refine ⟨hs.base, ?_, hs.sent.of_fields rfl rfl rfl rfl⟩
  rintro _ ⟨⟩
  exact ⟨hl, hx, h hcov⟩

theorem SandboxLife.Sound.destroySandbox {order : List (String × List Pid)} (hs : s.Sound)
    (h : s.destroySandbox order = some t) : t.Sound := by
  rw [SandboxLife.destroySandbox, Option.ite_none_right_eq_some] at h
  obtain ⟨⟨hl, hx, -, horder⟩, h⟩ := h
  cases h
  refine ⟨hs.base, ?_, hs.sent.of_fields rfl rfl rfl rfl⟩
  rintro _ ⟨⟩
  exact ⟨hl, hx, horder.covers⟩

theorem SandboxLife.Sound.enter {ok : Bool} (hs : s.Sound) (h : s.enter ok = some t) :
    t.Sound := by
  rw [SandboxLife.enter] at h
  split at h
  · rename_i x rest signals hd
    split at h
    · cases h
      exact hs.advance hd id
    · cases h
      exact hs.unwind hd
  · cases h

theorem SandboxLife.Sound.kill {child : Option Nat} (hs : s.Sound) (h : s.kill child = some t) :
    t.Sound := by
  rw [SandboxLife.kill] at h
  split at h
  · rename_i c pid pids rest signals hd
    rw [Option.ite_none_right_eq_some] at h
    obtain ⟨htake, h⟩ := h
    cases h
    have hbase := (FifoRuntime.Sound.of_reachable hs.base).base
    refine hs.advance hd fun hcov c' p e he => ?_
    rcases hcov c' p e he with ⟨pids', hm, hp⟩ | ⟨child', hm, hchild⟩
    · rcases List.mem_cons.1 hm with heq | hm
      · cases heq
        rcases List.mem_cons.1 hp with rfl | hp
        · refine .inr ⟨child, List.mem_append_right _ List.mem_cons_self, ?_⟩
          exact Runtime.takes_owner hbase he htake
        · exact .inl ⟨pids, List.mem_cons_self, hp⟩
      · exact .inl ⟨pids', List.mem_cons_of_mem _ hm, hp⟩
    · exact .inr ⟨child', List.mem_append_left _ hm, hchild⟩
  · cases h

theorem SandboxLife.Sound.esrch (hs : s.Sound) (h : s.esrch = some t) : t.Sound := by
  rw [SandboxLife.esrch] at h
  split at h
  · rename_i hd
    rw [Option.ite_none_left_eq_some] at h
    cases h.2
    exact hs.unwind hd
  · cases h

theorem SandboxLife.Sound.leave {ok : Bool} (hs : s.Sound) (h : s.leave ok = some t) :
    t.Sound := by
  rw [SandboxLife.leave] at h
  split at h
  · rename_i c rest signals hd
    split at h
    · cases h
      refine hs.advance hd fun hcov c' p e he => (hcov c' p e he).imp_left ?_
      rintro ⟨pids, hm, hp⟩
      rcases List.mem_cons.1 hm with heq | hm
      · cases heq
        cases hp
      · exact ⟨pids, hm, hp⟩
    · cases h
      exact hs.unwind hd
  · cases h

theorem SandboxLife.Sound.hang (hs : s.Sound) (h : s.hang = some t) : t.Sound := by
  rw [SandboxLife.hang] at h
  split at h
  · rename_i hd
    cases h
    exact hs.advance hd id
  · cases h

theorem SandboxLife.Sound.send (hs : s.Sound) (h : s.send = some t) : t.Sound := by
  rw [SandboxLife.send] at h
  split at h
  · rename_i signals hd
    split at h
    · rename_i hsender
      cases h
      refine ⟨hs.base, fun h => (by cases h), ?_⟩
      cases hs.sent with
      | once hno => cases hsender.symm.trans hno
      | unsent _ hm ho hdest =>
        refine .once (d := ⟨s.agent.runtime, signals⟩) rfl ?_ ?_ fun c p e he => ?_
        · dsimp only
          rw [hm, ho]
          rfl
        · dsimp only
          rw [hdest]
          rfl
        · refine ((hs.held hd).2.2 c p e he).resolve_left ?_
          rintro ⟨pids, hmem, -⟩
          cases hmem
    · cases h
      exact hs.unwind hd
  · cases h

theorem SandboxLife.Sound.recv (hs : s.Sound) (h : s.recv = some t) : t.Sound := by
  rw [SandboxLife.recv, Option.ite_none_right_eq_some] at h
  obtain ⟨⟨ho, hm⟩, h⟩ := h
  cases h
  refine ⟨hs.base, hs.held, ?_⟩
  cases hs.sent with
  | unsent _ h0 =>
    rw [h0] at hm
    cases hm
  | once h1 h2 h3 h4 =>
    refine .once h1 ?_ h3 h4
    dsimp only
    rw [h2, ho]
    rfl

theorem SandboxLife.Sound.step {a : SandboxAction} (hs : s.Sound) (h : s.step a = some t) :
    t.Sound := by
  cases a with
  | base a => exact hs.baseStep h
  | destroySandbox order => exact hs.destroySandbox h
  | enter ok => exact hs.enter h
  | kill child => exact hs.kill h
  | esrch => exact hs.esrch h
  | leave ok => exact hs.leave h
  | hang => exact hs.hang h
  | send => exact hs.send h
  | recv => exact hs.recv h

theorem SandboxLife.Sound.of_reachable (h : sandboxLife.Reachable s) : s.Sound := by
  apply h.invariant
  · rintro s ⟨h0, hs⟩
    rw [hs]
    exact ⟨.init h0, fun h => (by cases h), .unsent rfl rfl rfl rfl⟩
  · exact fun s a t hs _ hst => hs.step hst

/-- `main` ends only after a `DestroySandbox` call that reached every process, and no second such
call gets through. -/
theorem SandboxLife.ended_complete (h : sandboxLife.Reachable s) :
    (s.destroyed = [] ∧ s.ended = false) ∨ ∃ d, s.destroyed = [d] ∧ d.Complete := by
  cases (SandboxLife.Sound.of_reachable h).sent with
  | unsent _ _ ho hd => exact .inl ⟨hd, ho⟩
  | once _ _ hd hc => exact .inr ⟨_, hd, hc⟩

def SandboxLife.boot : SandboxLife := ⟨.boot, none, true, 0, false, []⟩

theorem SandboxLife.boot_init : sandboxLife.init .boot := ⟨FifoRuntime.boot_init, rfl⟩

/-- A container, and a `DestroySandbox` call that gets through. -/
def oneDestroyed : List SandboxAction :=
  firstCreate.map (fun a => .base (.base a)) ++
    [.destroySandbox [("c1", [10])], .enter true, .kill (some 0), .leave true, .send, .recv]

theorem SandboxLife.ended_complete_oneDestroyed : ∃ s : SandboxLife, s.ended = true ∧
    ∃ d, s.destroyed = [d] ∧ d.Complete := by
  have hr : (sandboxLife.run .boot oneDestroyed).map SandboxLife.ended = some true := by decide
  obtain ⟨s, hs, ho⟩ := Option.map_eq_some_iff.1 hr
  refine ⟨s, ho, ?_⟩
  rcases SandboxLife.ended_complete (System.reachable_of_run SandboxLife.boot_init hs) with h | h
  · cases ho.symm.trans h.2
  · exact h

end KataAgent
