import KataAgent.ChildPhases
import KataAgent.ContainerTeardown

namespace KataAgent
open Transition
set_option autoImplicit true

/-- The container whose first process the child is. -/
def Runtime.firstOf (s : Runtime) (k : Nat) : Option String :=
  (s.children.lookup k).bind fun c => c.startedFor.bind fun req =>
    if req.init then some req.containerId else none

variable {r r' : Runtime} {c : String} {k : Nat} {a : RuntimeAction}

theorem Runtime.firstOf_eq_some : r.firstOf k = some c ↔ ∃ ch req, r.children.lookup k = some ch ∧
    ch.startedFor = some req ∧ req.init = true ∧ req.containerId = c := by
  constructor
  · intro h
    obtain ⟨ch, hch, h⟩ := Option.bind_eq_some_iff.1 h
    obtain ⟨req, hreq, h⟩ := Option.bind_eq_some_iff.1 h
    rw [Option.ite_none_right_eq_some, Option.some.injEq] at h
    exact ⟨ch, req, hch, hreq, h⟩
  · rintro ⟨ch, req, hch, hreq, hi, rfl⟩
    simp [Runtime.firstOf, hch, hreq, hi]

theorem Runtime.runs_iff :
    r.Runs k ↔ ∃ ch, r.children.lookup k = some ch ∧ ch.phase = .running :=
  Option.map_eq_some_iff

/-- A child stays the first process of its container. -/
theorem Runtime.ChildEffect.firstOf (h : r.ChildEffect a r') (hk : r.firstOf k = some c) :
    r'.firstOf k = some c := by
  obtain ⟨ch, req, hch, hreq⟩ := Runtime.firstOf_eq_some.1 hk
  apply Runtime.firstOf_eq_some.2
  cases h with
  | same ht => exact ⟨ch, req, ht ▸ hch, hreq⟩
  | moves hj hm ht =>
    rw [ht, Table.lookup_update]
    split
    · rename_i hkj
      rw [← hkj, hch]
      exact ⟨_, req, rfl, hreq⟩
    · exact ⟨ch, req, hch, hreq⟩
  | new hj hp hf ht =>
    rw [ht, Table.lookup_insert, if_neg]
    · exact ⟨ch, req, hch, hreq⟩
    · rintro rfl
      cases hj.symm.trans hch

/-- A child that was there and runs ran before. -/
theorem Runtime.ChildEffect.runs_back (h : r.ChildEffect a r') (hk : r.firstOf k = some c)
    (hr : r'.Runs k) : r.Runs k := by
  obtain ⟨ch, req, hch, -⟩ := Runtime.firstOf_eq_some.1 hk
  obtain ⟨ch', hch', hp⟩ := Runtime.runs_iff.1 hr
  apply Runtime.runs_iff.2
  cases h with
  | same ht => exact ⟨ch', ht ▸ hch', hp⟩
  | moves hj hm ht =>
    rw [ht] at hch'
    rcases Table.of_lookup_update hch' with ⟨-, x, -, rfl⟩ | ⟨-, hx⟩
    · exact absurd hp hm.not_running
    · exact ⟨ch', hx, hp⟩
  | new hj _ hf ht =>
    rw [ht] at hch'
    rcases Table.of_lookup_insert hch' with ⟨rfl, -⟩ | ⟨-, hx⟩
    · cases hj.symm.trans hch
    · exact ⟨ch', hx, hp⟩

/-- A child that runs goes on, unless it ends. -/
theorem Runtime.ChildEffect.runs (h : r.ChildEffect a r') (hr : r.Runs k)
    (ha : ∀ status, a ≠ .exit k status) : r'.Runs k := by
  obtain ⟨ch, hch, hp⟩ := Runtime.runs_iff.1 hr
  apply Runtime.runs_iff.2
  cases h with
  | same ht => exact ⟨ch, ht ▸ hch, hp⟩
  | moves hj hm ht =>
    rw [ht, Table.lookup_update, if_neg]
    · exact ⟨ch, hch, hp⟩
    · rintro rfl
      cases hj.symm.trans hch
      obtain ⟨status, hst⟩ := hm.exits hp
      exact ha status hst
  | new hj _ hf ht =>
    rw [ht, Table.lookup_insert, if_neg]
    · exact ⟨ch, hch, hp⟩
    · rintro rfl
      cases hj.symm.trans hch

/-- Only a start forks a first process. -/
theorem Runtime.ChildEffect.firstOf_back (h : r.ChildEffect a r') (ha : ∀ n, a ≠ .start n)
    (hk : r'.firstOf k = some c) : r.firstOf k = some c := by
  obtain ⟨ch, req, hch, hreq, hc⟩ := Runtime.firstOf_eq_some.1 hk
  apply Runtime.firstOf_eq_some.2
  cases h with
  | same ht => exact ⟨ch, req, ht ▸ hch, hreq, hc⟩
  | moves hj hm ht =>
    rw [ht] at hch
    rcases Table.of_lookup_update hch with ⟨rfl, x, hx, rfl⟩ | ⟨-, hx⟩
    · exact ⟨x, req, hx, hreq, hc⟩
    · exact ⟨ch, req, hx, hreq, hc⟩
  | new hj _ hf ht =>
    rw [ht] at hch
    rcases Table.of_lookup_insert hch with ⟨-, rfl⟩ | ⟨-, hx⟩
    · cases (hf ha).symm.trans hreq
    · exact ⟨ch, req, hx, hreq, hc⟩

/-- A child that ends does not run. -/
theorem Runtime.exit_not_runs (h : r.step (.exit k status) = some r') : ¬ r'.Runs k := by
  simp only [Runtime.step, Runtime.exit] at h
  split at h
  · rename_i hk
    cases h
    rw [Runtime.Runs, Runtime.setPhase, Table.lookup_update, if_pos rfl, hk]
    exact fun h => by cases h
  · cases h

/-- What needs no mutex does not take it. -/
theorem Runtime.step_unlocked_lockable (ha : a.unlocked = true) (h : r.step a = some r')
    (hl : r.lockable) : r'.lockable := by
  cases Runtime.step_effect h with
  | spawn => exact hl
  | exec => exact hl
  | exit => exact hl
  | reap => exact hl
  | lose => exact hl
  | waitRead => exact hl
  | readReturn => exact hl
  | readFail => exact hl
  | openOther => exact hl
  | closeOther => exact hl
  | unwind _ hu =>
    cases a with
    | abandon => cases ha
    | readPick => cases ha
    | removeContainer => cases ha
    | destroyContainer => cases ha
    | _ => cases hu
  | _ => cases ha

/-- Only a start that fails leaves a child behind that waits for it. -/
theorem Runtime.step_stranded (h : r.step a = some r') (hk : k ∈ r'.stranded) :
    k ∈ r.stranded ∨ ∃ unwinds st, a = .abandon unwinds true ∧ r.starting = some st ∧
      st.id = k := by
  cases Runtime.step_effect h with
  | @abandon st unwinds strands hst =>
    cases strands with
    | false => exact .inl hk
    | true =>
      rcases Finset.mem_insert.1 hk with rfl | hk
      · exact .inr ⟨unwinds, st, rfl, hst, rfl⟩
      · exact .inl hk
  | register => exact .inl (Runtime.register_stranded ▸ hk)
  | _ => exact .inl hk

theorem Runtime.stranded_mono (h : r.step a = some r') : r.stranded ⊆ r'.stranded := by
  cases Runtime.step_effect h with
  | abandon hst =>
    dsimp only
    split
    · exact Finset.subset_insert ..
    · exact Finset.Subset.refl _
  | register => exact Runtime.register_stranded.ge
  | _ => exact Finset.Subset.refl _

theorem Runtime.firstOf_congr (h : r'.children = r.children) (k : Nat) :
    r'.firstOf k = r.firstOf k := by
  rw [Runtime.firstOf, h]
  rfl

theorem StartRequest.makeFifo_mem (req : StartRequest) (h : req.init = true) :
    .makeFifo ∈ req.program := by
  simp [StartRequest.program, startParent, mem_onlyIf, h]

/-- The fifo is made before the `fork`. -/
theorem Tidy.made_before_fork {rest : List StartInstr} (h : Tidy (.fork :: rest)) :
    StartInstr.makeFifo ∉ StartInstr.fork :: rest := by
  intro hm
  rcases List.mem_cons.1 hm with hm | hm
  · cases hm
  · exact StartInstr.fork_not_before ((List.pairwise_cons.1 h.ordered).1 _ hm)

/-- The process of a start that forks. -/
theorem Runtime.firstOf_fork {st : Starting} (hr' : r'.children =
    r.children.insert st.id ⟨pid, .running, some st.request⟩) (hk : r'.firstOf k = some c) :
    (k = st.id ∧ st.request.init = true ∧ c = st.request.containerId) ∨
      (k ≠ st.id ∧ r.firstOf k = some c) := by
  obtain ⟨ch, req, hch, hreq, hi, rfl⟩ := Runtime.firstOf_eq_some.1 hk
  rw [hr'] at hch
  rcases Table.of_lookup_insert hch with ⟨rfl, rfl⟩ | ⟨hne, hch⟩
  · cases hreq
    exact .inl ⟨rfl, hi, rfl⟩
  · exact .inr ⟨hne, Runtime.firstOf_eq_some.2 ⟨ch, req, hch, hreq, hi, rfl⟩⟩

/-- The fifo in a container's directory is that of a start of this container. -/
structure Runtime.FifosNamed (r : Runtime) : Prop where
  lt : ∀ {c k}, r.fifos.lookup c = some k → k < r.next
  starting : ∀ {c st}, r.starting = some st → r.fifos.lookup c = some st.id →
    st.request.containerId = c
  named : ∀ {c c' k}, r.fifos.lookup c = some k → r.firstOf k = some c' → c' = c

theorem Runtime.FifosNamed.frame (hs : r.FifosNamed) (hn : r.next ≤ r'.next)
    (hf : ∀ c k, r'.fifos.lookup c = some k → r.fifos.lookup c = some k)
    (hst : ∀ st', r'.starting = some st' → ∃ st, r.starting = some st ∧ st'.id = st.id ∧
      st'.request = st.request)
    (hk : ∀ k c, r'.firstOf k = some c → r.firstOf k = some c) : r'.FifosNamed where
  lt h := (hs.lt (hf _ _ h)).trans_le hn
  starting := by
    intro c st' h hc
    obtain ⟨st, hst, hid, hreq⟩ := hst st' h
    rw [hreq]
    exact hs.starting hst (hid ▸ hf _ _ hc)
  named h h' := hs.named (hf _ _ h) (hk _ _ h')

theorem Runtime.FifosNamed.step (hs : r.FifosNamed) (hS : r.Started) (ht : r.StartTidy)
    (h : r.step a = some r') : r'.FifosNamed := by
  have hid : ∀ c k, r.fifos.lookup c = some k → r.fifos.lookup c = some k := fun _ _ h => h
  have hsame : ∀ st', r.starting = some st' → ∃ st, r.starting = some st ∧ st'.id = st.id ∧
      st'.request = st.request := fun st h => ⟨st, h, rfl, rfl⟩
  have hadv : ∀ {st rest slots}, r.starting = some st →
      ∀ st', some { st with slots := slots, rest := rest } = some st' →
        ∃ st, r.starting = some st ∧ st'.id = st.id ∧ st'.request = st.request := by
    rintro st rest slots hst _ ⟨⟩
    exact ⟨st, hst, rfl, rfl⟩
  have hback : (∀ n, a ≠ .start n) → ∀ k c, r'.firstOf k = some c → r.firstOf k = some c :=
    fun ha _ _ hk => (hS.childEffect h).firstOf_back ha hk
  have hnone : ∀ st', (none : Option Starting) = some st' → ∃ st, r.starting = some st ∧
      st'.id = st.id ∧ st'.request = st.request := fun _ h => by cases h
  cases Runtime.step_effect h with
  | spawn hp => exact hs.frame (Nat.le_succ _) hid hsame (hback nofun)
  | begin hl => exact {
      lt := fun h => (hs.lt h).trans (Nat.lt_succ_self _)
      starting := by
        rintro c _ ⟨⟩ hc
        exact absurd (hs.lt hc) (Nat.lt_irrefl _)
      named := fun h h' => hs.named h h' }
  | openAt hst hr hn => exact hs.frame le_rfl hid (hadv hst) fun _ _ h => h
  | closeAt hst hr hfd => exact hs.frame le_rfl hid (hadv hst) fun _ _ h => h
  | getContainer hst hr hm => exact hs.frame le_rfl hid (hadv hst) fun _ _ h => h
  | @makeFifo st rest n hst hr hm =>
    have hfork : .fork ∈ st.rest := (ht st hst).2.forks (hr ▸ List.mem_cons_self)
    have hnew := hS.unforked hst hfork
    exact {
      lt := by
        intro c k hk
        rcases Table.of_lookup_insert hk with ⟨-, rfl⟩ | ⟨-, hk⟩
        · exact (ht st hst).1
        · exact hs.lt hk
      starting := by
        rintro c _ ⟨⟩ hc
        rcases Table.of_lookup_insert hc with ⟨hx, -⟩ | ⟨-, hc⟩
        · exact hx.symm
        · have h : st.request.containerId = c := hs.starting hst hc
          exact h
      named := by
        intro c c' k hk hf
        rcases Table.of_lookup_insert hk with ⟨-, rfl⟩ | ⟨-, hk⟩
        · obtain ⟨ch, -, hch, -⟩ := Runtime.firstOf_eq_some.1 hf
          cases hnew.symm.trans hch
        · exact hs.named hk hf }
  | @fork st rest pid hst hr hp => exact {
      lt := fun h => hs.lt h
      starting := by
        rintro c _ ⟨⟩ hc
        have h : st.request.containerId = c := hs.starting hst hc
        exact h
      named := by
        intro c c' k hk hf
        rcases Runtime.firstOf_fork rfl hf with ⟨rfl, -, rfl⟩ | ⟨-, hf⟩
        · exact hs.starting hst hk
        · exact hs.named hk hf }
  | register hst hr hc =>
    apply hs.frame Runtime.register_next.ge
    · exact fun _ _ h => Runtime.register_fifos (s := r) ▸ h
    · exact fun _ h => by cases Runtime.register_starting.symm.trans h
    · exact fun k c hk => (Runtime.firstOf_congr Runtime.register_children k).symm.trans hk
  | abandon hst => exact hs.frame le_rfl hid hnone (hback nofun)
  | createSandbox hl =>
    refine hs.frame le_rfl (fun c k hk => ?_) hsame (hback nofun)
    dsimp only at hk
    rw [Table.lookup_foldl_erase, Option.ite_none_left_eq_some] at hk
    exact hk.2
  | unwind hl hu => exact hs.frame le_rfl hid hsame fun _ _ h => h
  | _ => exact hs.frame le_rfl hid hsame (hback nofun)

/-- A container whose fifo nobody removes has one first process. -/
structure Runtime.FirstOnce (r : Runtime) (c : String) : Prop where
  made : ∀ {k}, r.firstOf k = some c → c ∈ r.fifos
  due : ∀ {st}, r.starting = some st → st.request.init = true → st.request.containerId = c →
    .makeFifo ∈ st.rest ∨ (c ∈ r.fifos ∧ (.fork ∈ st.rest → ∀ k, r.firstOf k ≠ some c))
  once : ∀ {k j}, r.firstOf k = some c → r.firstOf j = some c → k = j

theorem Runtime.FirstOnce.frame (hs : r.FirstOnce c)
    (hf : ∀ k, r'.firstOf k = some c → r.firstOf k = some c) (hm : c ∈ r.fifos → c ∈ r'.fifos)
    (hst : ∀ st', r'.starting = some st' → st'.request.init = true → .makeFifo ∈ st'.rest ∨
      ∃ st, r.starting = some st ∧ st'.request = st.request ∧
        (.makeFifo ∈ st.rest → .makeFifo ∈ st'.rest) ∧ (.fork ∈ st'.rest → .fork ∈ st.rest)) :
    r'.FirstOnce c where
  made h := hm (hs.made (hf _ h))
  due := by
    intro st' h hi hc
    rcases hst st' h hi with h | ⟨st, hst, hr, hfifo, hfork⟩
    · exact .inl h
    · rw [hr] at hi hc
      rcases hs.due hst hi hc with h | h
      · exact .inl (hfifo h)
      · exact .inr ⟨hm h.1, fun hx k hk => h.2 (hfork hx) k (hf _ hk)⟩
  once h h' := hs.once (hf _ h) (hf _ h')

/-- The next step of a start, other than the two that count. -/
theorem Runtime.FirstOnce.advance {instr : StartInstr} (hs : r.FirstOnce c)
    (hst : r.starting = some st) (hr : st.rest = instr :: rest) (hi : instr ≠ .makeFifo)
    (hc : r'.children = r.children) (hm : r'.fifos = r.fifos) (hst' : r'.starting = some st')
    (hreq : st'.request = st.request) (hrest : st'.rest = rest) : r'.FirstOnce c := by
  apply hs.frame
  case hf => exact fun k hk => (Runtime.firstOf_congr hc k).symm.trans hk
  case hm => exact fun h => hm ▸ h
  case hst =>
    intro x hx _
    cases hst'.symm.trans hx
    refine .inr ⟨st, hst, hreq, fun h => ?_, fun h => ?_⟩
    · rw [hrest]
      rw [hr] at h
      exact (List.mem_cons.1 h).resolve_left fun hx => hi hx.symm
    · rw [hr, ← hrest]
      exact List.mem_cons_of_mem _ h

theorem Runtime.FirstOnce.fork (hs : r.FirstOnce c) (ht : r.StartTidy)
    (hst : r.starting = some st) (hr : st.rest = .fork :: rest) :
    Runtime.FirstOnce { r with
      children := r.children.insert st.id ⟨pid, .running, some st.request⟩
      inherited := r.inherited.insert st.id r.exitWriters
      starting := some { st with rest := rest, child := some pid } } c := by
  have hfork : StartInstr.fork ∈ st.rest := hr ▸ List.mem_cons_self
  have htidy : Tidy (.fork :: rest) := hr ▸ (ht st hst).2
  -- the fifo was made before, and no first process with it
  have hdue (hi : st.request.init = true) (hc : st.request.containerId = c) :=
    (hs.due hst hi hc).resolve_left fun hm => htidy.made_before_fork (hr ▸ hm)
  constructor
  case made =>
    intro k hk
    rcases Runtime.firstOf_fork rfl hk with ⟨-, hi, hc⟩ | ⟨-, hk⟩
    · exact (hdue hi hc.symm).1
    · exact hs.made hk
  case due =>
    rintro _ ⟨⟩ hi hc
    exact .inr ⟨(hdue hi hc).1, fun hm => absurd hm htidy.head_notMem⟩
  case once =>
    intro k j hk hj
    rcases Runtime.firstOf_fork rfl hk with ⟨hkid, hi, hc⟩ | ⟨-, hk⟩
    · rcases Runtime.firstOf_fork rfl hj with ⟨hjid, -⟩ | ⟨-, hj⟩
      · exact hkid.trans hjid.symm
      · exact absurd hj ((hdue hi hc.symm).2 hfork j)
    · rcases Runtime.firstOf_fork rfl hj with ⟨-, hi, hc⟩ | ⟨-, hj⟩
      · exact absurd hk ((hdue hi hc.symm).2 hfork k)
      · exact hs.once hk hj

/-- No `CreateSandbox` removes the directory of the container. -/
def Runtime.FifoLeft (c : String) : RuntimeAction → Prop
  | .createSandbox wiped => c ∉ wiped
  | _ => True

theorem Runtime.FirstOnce.step (hs : r.FirstOnce c) (hS : r.Started) (ht : r.StartTidy)
    (hl : Runtime.FifoLeft c a) (h : r.step a = some r') : r'.FirstOnce c := by
  have hsame : ∀ st', r.starting = some st' → st'.request.init = true → .makeFifo ∈ st'.rest ∨
      ∃ st, r.starting = some st ∧ st'.request = st.request ∧
        (.makeFifo ∈ st.rest → .makeFifo ∈ st'.rest) ∧ (.fork ∈ st'.rest → .fork ∈ st.rest) :=
    fun st' h _ => .inr ⟨st', h, rfl, id, id⟩
  have hback : (∀ n, a ≠ .start n) → ∀ k, r'.firstOf k = some c → r.firstOf k = some c :=
    fun ha _ hk => (hS.childEffect h).firstOf_back ha hk
  cases Runtime.step_effect h with
  | begin hl =>
    apply hs.frame (hback nofun) id
    rintro _ ⟨⟩ hi
    exact .inl (StartRequest.makeFifo_mem _ hi)
  | openAt hst hr hn => exact hs.advance hst hr nofun rfl rfl rfl rfl rfl
  | closeAt hst hr hfd => exact hs.advance hst hr nofun rfl rfl rfl rfl rfl
  | getContainer hst hr hm => exact hs.advance hst hr nofun rfl rfl rfl rfl rfl
  | makeFifo hst hr hm => exact {
      made := fun h => Finmap.mem_insert.2 (.inr (hs.made h))
      due := by
        rintro _ ⟨⟩ hi hc
        refine .inr ⟨Finmap.mem_insert.2 (.inl hc.symm), fun _ k hk => hm ?_⟩
        rw [hc]
        exact hs.made hk
      once := fun h h' => hs.once h h' }
  | fork hst hr hp => exact hs.fork ht hst hr
  | register hst hr hc =>
    apply hs.frame _ fun h => Runtime.register_fifos (s := r) ▸ h
    · exact fun _ h => by cases Runtime.register_starting.symm.trans h
    · exact fun k hk => (Runtime.firstOf_congr Runtime.register_children k).symm.trans hk
  | abandon hst =>
    apply hs.frame (hback nofun) id
    exact fun _ h => by cases h
  | createSandbox =>
    refine hs.frame (hback nofun) (fun hc => ?_) hsame
    rw [Finmap.mem_iff] at hc ⊢
    dsimp only
    rw [Table.lookup_foldl_erase, if_neg hl]
    exact hc
  | unwind hl hu => exact hs.frame (fun _ h => h) id hsame
  | _ => exact hs.frame (hback nofun) id hsame

/-- As long as its fifo is left, a container has one first process. -/
theorem Runtime.first_once
    (h : processRuntime.Reach (fun _ a => Runtime.FifoLeft c a) r) : r.FirstOnce c := by
  have hr : r.StartTidy ∧ r.Started ∧ r.FirstOnce c := by
    apply h.invariant (I := fun r => r.StartTidy ∧ r.Started ∧ r.FirstOnce c)
    · intro s h0
      have hs := Runtime.Started.boot h0
      obtain ⟨files, -, rfl⟩ := h0
      refine ⟨fun st hst => (by cases hst), hs, ?_⟩
      exact ⟨fun h => (by cases h), fun h => (by cases h), fun h => (by cases h)⟩
    · intro s a t hs hl hst
      exact ⟨hs.1.step hst, hs.2.1.step hs.1 hst, hs.2.2.step hs.2.1 hs.1 hl hst⟩
  exact hr.2.2

theorem Runtime.FifosNamed.of_reachable (h : processRuntime.Reachable r) : r.FifosNamed := by
  have hr : r.StartTidy ∧ r.Started ∧ r.FifosNamed := by
    apply h.invariant
    · intro s h0
      have hs := Runtime.Started.boot h0
      obtain ⟨files, -, rfl⟩ := h0
      refine ⟨fun st hst => (by cases hst), hs, ?_⟩
      exact ⟨fun h => (by cases h), fun h => (by cases h), fun h => (by cases h)⟩
    · intro s a t hs _ hst
      exact ⟨hs.1.step hst, hs.2.1.step hs.1 hst, hs.2.2.step hs.2.1 hs.1 hst⟩
  exact hr.2.2

end KataAgent
