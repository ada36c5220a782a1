import KataAgent.ExitTracking

namespace KataAgent
open Transition
set_option autoImplicit true

variable {s t : Runtime} {e : ProcessRecord}

/-- The pid that the kernel gives to a child that the step makes. -/
def Runtime.newPid (s : Runtime) : RuntimeAction → Option Pid
  | .spawn pid _ => some pid
  | .start n => s.starting.bind fun st => if st.rest.head? = some .fork then some n else none
  | _ => none

/-- A new child gets no pid by which the agent still refers to another one. -/
def Runtime.PidsSpared (s : Runtime) (a : RuntimeAction) : Prop :=
  ∀ pid ∈ s.newPid a, ∀ k c, s.children.lookup k = some c → s.Referred k → c.pid ≠ pid

/-- A stronger condition that can be computed: no child had the pid before. -/
def Runtime.NewPids (s : Runtime) (a : RuntimeAction) : Prop :=
  ∀ pid ∈ s.newPid a, ∀ k ∈ s.children.keys, ∀ c ∈ s.children.lookup k, c.pid ≠ pid

instance : Decidable (Runtime.NewPids s a) := inferInstanceAs (Decidable (∀ _ ∈ _, _))

theorem Runtime.NewPids.spared (h : s.NewPids a) : s.PidsSpared a := fun pid hp k c hc _ =>
  h pid hp k (Table.mem_keys_iff.2 ⟨c, hc⟩) c hc

/-- A step that makes no child and refers to no more children by their pids. -/
theorem Runtime.DistinctPids.mono (hd : s.DistinctPids)
    (hc : ∀ k c, t.children.lookup k = some c →
      ∃ c', s.children.lookup k = some c' ∧ c'.pid = c.pid)
    (hl : ∀ k, t.Referred k → s.Referred k) : t.DistinctPids := by
  intro k l c d hk hk' h h' hp
  obtain ⟨c', hk, hp'⟩ := hc k c hk
  obtain ⟨d', hk', hp''⟩ := hc l d hk'
  exact hd k l c' d' hk hk' (hl k h) (hl l h') (by rw [hp', hp'', hp])

theorem Runtime.Referred.mono (h : t.Referred k)
    (hF : ∀ status, s.Finished k status → t.Finished k status)
    (hst : ∀ st', t.starting = some st' → st'.child ≠ none →
      ∃ st, s.starting = some st ∧ st.child ≠ none ∧ st.id = st'.id)
    (he : ∀ c p e, t.entry c p = some e → ∃ c' p' e', s.entry c' p' = some e' ∧ e'.owner = e.owner)
    (hw : ∀ i w, t.waits.lookup i = some w → w.phase.pending →
      ∃ w', s.waits.lookup i = some w' ∧ w'.found = w.found ∧ w'.phase.pending) : s.Referred k := by
  cases h with
  | unfinished h => exact .unfinished fun status hs => h status (hF status hs)
  | starting h hc hk =>
    obtain ⟨st, h', hc', hid⟩ := hst _ h hc
    exact .starting h' hc' (hid.trans hk)
  | registered h ho =>
    obtain ⟨c, p, e', h', ho'⟩ := he _ _ _ h
    exact .registered h' (ho'.trans ho)
  | awaited h hp hf =>
    obtain ⟨w', h', hf', hp'⟩ := hw _ _ h hp
    exact .awaited h' hp' (hf'.trans hf)

/-- A step that makes a child. -/
theorem Runtime.DistinctPids.insert (hd : s.DistinctPids) (hk : s.children.lookup k = none)
    (ht : t.children = s.children.insert k c) (hl : ∀ l, t.Referred l → l ≠ k → s.Referred l)
    (hp : ∀ l d, s.children.lookup l = some d → s.Referred l → d.pid ≠ c.pid) :
    t.DistinctPids := by
  have hold : ∀ {l d}, t.children.lookup l = some d → l = k ∧ d = c ∨
      l ≠ k ∧ s.children.lookup l = some d := by
    intro l d h
    rw [ht] at h
    exact Table.of_lookup_insert h
  intro x y a b hx hy h h' heq
  rcases hold hx with ⟨rfl, rfl⟩ | ⟨hne, hx⟩
  · rcases hold hy with ⟨rfl, rfl⟩ | ⟨hne', hy⟩
    · rfl
    · exact absurd heq.symm (hp y b hy (hl y h' hne'))
  · rcases hold hy with ⟨rfl, rfl⟩ | ⟨hne', hy⟩
    · exact absurd heq (hp x a hx (hl x h hne))
    · exact hd x y a b hx hy (hl x h hne) (hl y h' hne') heq

theorem Runtime.setPhase_pid (x : Nat) (d : Child)
    (h : (s.setPhase k phase).children.lookup x = some d) :
    ∃ c, s.children.lookup x = some c ∧ c.pid = d.pid := by
  rcases Table.of_lookup_update h with ⟨rfl, c, hc, rfl⟩ | ⟨-, h⟩
  · exact ⟨c, hc, rfl⟩
  · exact ⟨d, h, rfl⟩

/-- A call that is pending after its phase has changed was so before. -/
theorem Runtime.lookup_setWait_pending (hw : s.waits.lookup i = some w) (hp : w.phase.pending)
    (h : (s.setWait i phase).waits.lookup j = some x) (hx : x.phase.pending) :
    ∃ w', s.waits.lookup j = some w' ∧ w'.found = x.found ∧ w'.phase.pending := by
  rcases Runtime.lookup_setWait h with ⟨-, hy⟩ | ⟨rfl, w', hy, rfl⟩
  · exact ⟨x, hy, rfl, hx⟩
  · cases hw.symm.trans hy
    exact ⟨_, hw, rfl, hp⟩

theorem Runtime.DistinctPids.register (hd : s.DistinctPids)
    (hst : s.starting = some st) (hc : st.child = some pid) :
    (s.register st pid).DistinctPids := by
  apply hd.mono
  · intro k c h
    rw [Runtime.register_children] at h
    exact ⟨c, h, rfl⟩
  · intro x hx
    cases hx with
    | unfinished h =>
      apply Runtime.Referred.unfinished
      intro status hF
      apply h status
      rw [Runtime.Finished]
      rw [Runtime.register_children]
      exact hF
    | starting h => cases Runtime.register_starting.symm.trans h
    | registered he ho =>
      rcases Runtime.entry_register he with ⟨-, -, rfl⟩ | ⟨-, he⟩
      · exact .starting hst (by rw [hc]; exact Option.some_ne_none pid) ho
      · exact .registered he ho
    | awaited hw hp hf => exact .awaited (Runtime.register_waits ▸ hw) hp hf

theorem Runtime.DistinctPids.step (hd : s.DistinctPids) (hs : s.Started) (hp : s.PidsSpared a)
    (h : s.step a = some t) : t.DistinctPids := by
  have hch : ∀ k c, s.children.lookup k = some c →
      ∃ c', s.children.lookup k = some c' ∧ c'.pid = c.pid := fun _ c h => ⟨c, h, rfl⟩
  have hen : ∀ c p e, s.entry c p = some e → ∃ c' p' e', s.entry c' p' = some e' ∧
      e'.owner = e.owner := fun c p e h => ⟨c, p, e, h, rfl⟩
  have hera : ∀ {cid} c p e,
      Runtime.entry { s with containers := s.containers.erase cid } c p = some e →
      ∃ c' p' e', s.entry c' p' = some e' ∧ e'.owner = e.owner :=
    fun c p e h => ⟨c, p, e, Runtime.entry_erase h, rfl⟩
  have hwt : ∀ i w, s.waits.lookup i = some w → w.phase.pending →
      ∃ w', s.waits.lookup i = some w' ∧ w'.found = w.found ∧ w'.phase.pending :=
    fun _ w h hp => ⟨w, h, rfl, hp⟩
  have hF : ∀ k status, s.Finished k status → s.Finished k status := fun _ _ h => h
  have hid : ∀ st', s.starting = some st' → st'.child ≠ none →
      ∃ st, s.starting = some st ∧ st.child ≠ none ∧ st.id = st'.id :=
    fun st h hc => ⟨st, h, hc, rfl⟩
  have hadv : ∀ {st rest slots}, s.starting = some st →
      ∀ st', some { st with rest := rest, slots := slots } = some st' → st'.child ≠ none →
        ∃ st, s.starting = some st ∧ st.child ≠ none ∧ st.id = st'.id := by
    rintro st rest slots hst _ ⟨⟩ hc
    exact ⟨st, hst, hc, rfl⟩
  have hnone : ∀ st', (none : Option Starting) = some st' → st'.child ≠ none →
      ∃ st, s.starting = some st ∧ st.child ≠ none ∧ st.id = st'.id := fun _ h => by cases h
  have same : s.DistinctPids → (∀ k, t.Referred k → s.Referred k) → t.children = s.children →
      t.DistinctPids := fun hd hl hc => hd.mono (hc ▸ hch) hl
  cases Runtime.step_effect h with
  | spawn hn =>
    have hnew := hs.next_unused
    apply hd.insert hnew rfl
    · exact fun l hl _ => hl.mono (fun status h => h.insert hnew rfl) hid hen hwt
    · exact hp _ rfl
  | @exit k c status hk hph =>
    refine hd.mono Runtime.setPhase_pid fun x hx => ?_
    have hc : ∀ status, c.phase ≠ .handled status ∧ c.phase ≠ .lost status := by simp [hph]
    exact hx.mono (fun _ h => h.setPhase hk hc _) hid hen hwt
  | @reap k c status hi hk hph =>
    refine hd.mono Runtime.setPhase_pid fun x hx => ?_
    have hc : ∀ status, c.phase ≠ .handled status ∧ c.phase ≠ .lost status := by simp [hph]
    exact hx.mono (fun _ h => h.setPhase hk hc _) hid hen hwt
  | @lose k c status hk hph =>
    refine hd.mono Runtime.setPhase_pid fun x hx => ?_
    have hc : ∀ status, c.phase ≠ .handled status ∧ c.phase ≠ .lost status := by simp [hph]
    exact hx.mono (fun _ h => h.setPhase hk hc _) hid hen hwt
  | endRound hr hst hf =>
    refine hd.mono Runtime.setPhase_pid fun x hx => ?_
    exact hx.mono (fun _ h => h.setPhase_held hs hr _) hid hen hwt
  | writeExit hr hst he hw =>
    refine hd.mono Runtime.setPhase_pid fun x hx => ?_
    refine hx.mono (fun _ h => h.setPhase_held hs hr _) hid (fun c p a ha => ?_) hwt
    exact ⟨c, p, Runtime.entry_of_setEntry_owner he ha rfl⟩
  | begin hl =>
    refine same hd (fun k h => h.mono (hF k) (fun st' h hc => ?_) hen hwt) rfl
    cases h
    exact absurd rfl hc
  | openAt hst hr hn => exact same hd (fun k h => h.mono (hF k) (hadv hst) hen hwt) rfl
  | closeAt hst hr hfd => exact same hd (fun k h => h.mono (hF k) (hadv hst) hen hwt) rfl
  | getContainer hst hr hm => exact same hd (fun k h => h.mono (hF k) (hadv hst) hen hwt) rfl
  | makeFifo hst hr hm => exact same hd (fun k h => h.mono (hF k) (hadv hst) hen hwt) rfl
  | @fork st rest pid hst hr hn =>
    have hnew := hs.unforked hst (hr ▸ List.mem_cons_self)
    apply hd.insert hnew rfl
    · intro l hl hne
      cases hl with
      | starting h _ hk =>
        cases h
        exact absurd hk.symm hne
      | unfinished h => exact .unfinished fun status hs => h status (hs.insert hnew rfl)
      | registered he ho => exact .registered he ho
      | awaited hw hp hf => exact .awaited hw hp hf
    · apply hp
      simp [Runtime.newPid, hst, hr]
  | register hst hr hc => exact hd.register hst hc
  | abandon hst => exact same hd (fun k h => h.mono (hF k) hnone hen hwt) rfl
  | waitLookup hf hi =>
    refine same hd (fun k h => ?_) rfl
    cases h with
    | unfinished h => exact .unfinished h
    | starting h hc hk => exact .starting h hc hk
    | registered he ho => exact .registered he ho
    | awaited hw hp hx =>
      rcases Table.of_lookup_insert hw with ⟨-, rfl⟩ | ⟨-, hw⟩
      · exact .registered (Runtime.found_eq_some.1 hf).2.1 hx
      · exact .awaited hw hp hx
  | waitRead hw hph hr hb =>
    refine same hd (fun k h => h.mono (hF k) hid hen fun i x hx hp => ?_) rfl
    exact Runtime.lookup_setWait_pending hw (by rw [hph]; trivial) hx hp
  | waitPanic hw hph hst hn =>
    refine same hd (fun k h => h.mono (hF k) hid hen fun i x hx hp => ?_) rfl
    exact Runtime.lookup_setWait_pending hw (by rw [hph]; trivial) hx hp
  | waitReturn hw hph hst hn he =>
    refine same hd (fun k h => h.mono (hF k) hid ?_ fun i x hx hp => ?_) rfl
    · exact fun c p a ha => ⟨c, p, a, (Runtime.entry_removeEntry ha).2, rfl⟩
    · exact Runtime.lookup_setWait_pending hw (by rw [hph]; trivial) hx hp
  | closeStdin hf =>
    obtain ⟨-, he, -⟩ := Runtime.found_eq_some.1 hf
    refine same hd (fun k h => h.mono (hF k) hid (fun c p a ha => ?_) hwt) rfl
    exact ⟨c, p, Runtime.entry_of_setEntry_owner he ha rfl⟩
  | removeFail => exact hd
  | removeContainer hl => exact same hd (fun k h => h.mono (hF k) hid hera hwt) rfl
  | removeDestroyed hl hr => exact same hd (fun k h => h.mono (hF k) hid hera hwt) rfl
  | _ => exact same hd (fun k h => h.mono (hF k) hid hen hwt) rfl

theorem Runtime.DistinctPids.boot (h : processRuntime.init s) : s.DistinctPids := by
  obtain ⟨files, -, rfl⟩ := h
  intro k l c d hk
  cases hk

/-- While pids are spared, those of the live children are distinct. -/
theorem Runtime.sound_of_spared (h : processRuntime.Reach Runtime.PidsSpared s) :
    s.Sound ∧ s.DistinctPids := by
  apply h.invariant (I := fun s => s.Sound ∧ s.DistinctPids)
  · exact fun s h => ⟨.boot h, .boot h⟩
  · exact fun s a t hs hp hst => ⟨hs.1.step hs.2 hst, hs.2.step hs.1.started hp hst⟩

/-- What clients and the kernel may expect of the reaper and of `WaitProcess`. -/
structure Runtime.StatusesKept (s : Runtime) : Prop where
  /-- A call returns the status of the process that was started under its exec id. -/
  returned : ∀ i w code, s.waits.lookup i = some w → w.phase = .returned code →
    s.Named w.found w.pid (some (w.containerId, w.execId)) ∧
      ∃ status, s.Ended w.found status ∧ code = status.code
  written : ∀ x ∈ s.written, x.1 = x.2
  closed : ∀ k, s.closed.count (k, .exitPipeW) ≤ 1

/-- Without the reuse of a pid that the agent still refers to, no status goes astray. -/
theorem Runtime.statuses_kept (h : processRuntime.Reach Runtime.PidsSpared s) :
    s.StatusesKept := by
  obtain ⟨hs, -⟩ := Runtime.sound_of_spared h
  exact {
    returned := fun i w code hw hp => ⟨hs.started.wait hw, hs.tracked.returned hw hp⟩
    written := fun x hx => hs.tracked.written hx
    closed := fun k => List.nodup_iff_count_le_one.1 hs.held.closed_nodup _ }

/-- A start of a container with one process, with the numbers that it gets. -/
def createRun (containerId : String) (fds : List Nat) : List RuntimeAction :=
  .begin ⟨containerId, "init", true, false, 0, 0⟩ :: fds.map .start

/-- The process of the first container has pid 10. -/
def firstCreate : List RuntimeAction :=
  createRun "c1" [0, 1, 2, 3, 4, 5, 0, 6, 7, 8, 9, 10, 10, 0, 0, 0, 0, 0, 0, 0, 0, 0, 3, 0]

/-- The process ends with status 7, and a `WaitProcess` call for it runs to its end. -/
def firstLife : List RuntimeAction :=
  firstCreate ++ [.exit 0 (.exited 7), .reap 0, .record "c1", .waitLookup 0 "c1" "init" 10,
    .waitRead 0, .waitFinish 0]

def Runtime.play (l : List RuntimeAction) : Runtime :=
  (processRuntime.runIf Runtime.NewPids (.boot ∅) l).getD (.boot ∅)

theorem Runtime.boot_init : processRuntime.init (.boot ∅) := ⟨∅, fun _ _ h => (by cases h), rfl⟩

theorem Runtime.reach_play (l : List RuntimeAction) :
    processRuntime.Reach Runtime.PidsSpared (.play l) := by
  have h : processRuntime.Reach Runtime.NewPids (.play l) := by
    rw [Runtime.play]
    cases hr : processRuntime.runIf Runtime.NewPids (.boot ∅) l with
    | none => exact .init Runtime.boot_init
    | some t => exact .runIf (.init Runtime.boot_init) hr
  exact h.mono fun _ _ => Runtime.NewPids.spared

theorem Runtime.statuses_kept_firstLife :
    ((Runtime.play firstLife).waits.lookup 0).map WaitCall.phase = some (.returned 7) ∧
      (Runtime.play firstLife).StatusesKept :=
  ⟨by decide, Runtime.statuses_kept (Runtime.reach_play firstLife)⟩

/-- The process of the first container has ended and is not waited for when the second one's
process gets its pid and ends with status 8. `find_process` comes to the first container. -/
def reusedPid : List RuntimeAction :=
  firstCreate ++ [.exit 0 (.exited 7), .reap 0, .record "c1"] ++
    createRun "c2" [3, 5, 6, 7, 8, 9, 0, 10, 11, 12, 13, 14, 10, 0, 0, 0, 0, 0, 0, 0, 0, 3, 7, 0] ++
    [.exit 1 (.exited 8), .reap 1, .record "c1", .waitLookup 0 "c1" "init" 10, .waitRead 0,
      .waitFinish 0]

theorem Runtime.statuses_astray : ¬ ∀ s, processRuntime.Reachable s → s.StatusesKept := by
  intro h
  have hr : (processRuntime.run (.boot ∅) reusedPid).isSome := by decide
  obtain ⟨s, hs⟩ := Option.isSome_iff_exists.1 hr
  have hw : (processRuntime.run (.boot ∅) reusedPid).map (fun s => s.written) =
      some [(0, 0), (1, 0)] := by decide
  rw [hs] at hw
  have hwr : s.written = [(0, 0), (1, 0)] := Option.some.inj hw
  have hk := h s (System.reachable_of_run Runtime.boot_init hs)
  exact absurd (hk.written (1, 0) (by rw [hwr]; decide)) (by decide)

end KataAgent
