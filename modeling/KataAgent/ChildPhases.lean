import KataAgent.PidTracking

namespace KataAgent
set_option autoImplicit true

/-- How a child goes from its end to where the reaper is through with it. -/
inductive ChildPhase.Moves (k : Nat) : RuntimeAction → ChildPhase → ChildPhase → Prop where
  | exit : Moves k (.exit k status) .running (.zombie status)
  | reap (hv : status.known = true) : Moves k (.reap k) (.zombie status) (.reaped status)
  | lose (hv : status.known = false) : Moves k (.reap k) (.zombie status) (.lost status)
  | record : Moves k (.record containerId) (.reaped status) (.handled status)

variable {s t : Runtime} {a : RuntimeAction}

theorem ChildPhase.Moves.not_running {p q : ChildPhase} (h : p.Moves k a q) : q ≠ .running := by
  cases h <;> exact nofun

/-- A child that is not reaped after a step was not reaped before. -/
theorem ChildPhase.Moves.unreaped {p q : ChildPhase} (h : p.Moves k a q)
    (hq : q.unreaped = true) : p.unreaped = true := by
  cases h with
  | exit => rfl
  | reap => rfl
  | lose => rfl
  | record => cases hq

theorem ChildPhase.Moves.exits {p q : ChildPhase} (h : p.Moves k a q) (hp : p = .running) :
    ∃ status, a = .exit k status := by
  cases h with
  | exit => exact ⟨_, rfl⟩
  | _ => cases hp

/-- What a step does to the children. -/
inductive Runtime.ChildEffect (s : Runtime) (a : RuntimeAction) (t : Runtime) : Prop where
  | same (h : t.children = s.children)
  | moves {k : Nat} {c : Child} {phase : ChildPhase} (h : s.children.lookup k = some c)
      (hm : c.phase.Moves k a phase)
      (ht : t.children = s.children.update k fun c => { c with phase := phase })
  | new {k : Nat} {c : Child} (h : s.children.lookup k = none) (hp : c.phase = .running)
      (hf : (∀ n, a ≠ .start n) → c.startedFor = none) (ht : t.children = s.children.insert k c)
      (hfree : ¬ s.pidTaken c.pid)

theorem Runtime.Started.childEffect (hs : s.Started) (h : s.step a = some t) :
    s.ChildEffect a t := by
  cases Runtime.step_effect h with
  | spawn hp => exact .new hs.next_unused rfl (fun _ => rfl) rfl hp
  | exit hk hp => exact .moves hk (hp ▸ .exit) rfl
  | reap hi hk hp hv => exact .moves hk (hp ▸ .reap hv) rfl
  | lose hk hp hv => exact .moves hk (hp ▸ .lose hv) rfl
  | endRound hr =>
    obtain ⟨c, hc, -, hp⟩ := hs.holding hr
    exact .moves hc (hp ▸ .record) rfl
  | writeExit hr =>
    obtain ⟨c, hc, -, hp⟩ := hs.holding hr
    exact .moves hc (hp ▸ .record) rfl
  | fork hst hr hp =>
    have hf : StartInstr.fork ∈ _ := hr ▸ List.mem_cons_self
    exact .new (hs.unforked hst hf) rfl (fun h => absurd rfl (h _)) rfl hp
  | register => exact .same Runtime.register_children
  | _ => exact .same rfl

/-- What holds of new children, and is kept when a child moves on, is kept by a step. -/
theorem Runtime.ChildEffect.forall_children {P : Child → Prop} (h : s.ChildEffect a t)
    (hs : ∀ k c, s.children.lookup k = some c → P c)
    (hnew : ∀ c : Child, c.phase = .running → P c)
    (hmove : ∀ k c phase, s.children.lookup k = some c → c.phase.Moves k a phase → P c →
      P { c with phase := phase }) : ∀ k c, t.children.lookup k = some c → P c := by
  intro k c hk
  cases h with
  | same h => exact hs k c (h ▸ hk)
  | moves hj hm ht =>
    rw [ht] at hk
    rcases Table.of_lookup_update hk with ⟨rfl, d, hd, rfl⟩ | ⟨-, hk⟩
    · cases hj.symm.trans hd
      exact hmove _ _ _ hj hm (hs _ _ hj)
    · exact hs k c hk
  | new hj hp hf ht =>
    rw [ht] at hk
    rcases Table.of_lookup_insert hk with ⟨-, rfl⟩ | ⟨-, hk⟩
    · exact hnew _ hp
    · exact hs k c hk

end KataAgent
