import KataAgent.PidTracking

namespace KataAgent
open Transition
set_option autoImplicit true

/-- The kernel, or the agent by its pid, still refers to the child: the reaper is not through with
it, a start under way has forked it, it is in a `processes` map, or a `WaitProcess` call is about to
look it up again. -/
inductive Runtime.Referred (s : Runtime) (k : Nat) : Prop where
  | unfinished (h : ∀ status, ¬ s.Finished k status)
  | starting (hst : s.starting = some st) (hc : st.child ≠ none) (hk : st.id = k)
  | registered (he : s.entry c p = some e) (ho : e.owner = k)
  | awaited (hw : s.waits.lookup i = some w) (hp : w.phase.pending) (hf : w.found = k)

def Runtime.DistinctPids (s : Runtime) : Prop :=
  ∀ k l c d, s.children.lookup k = some c → s.children.lookup l = some d →
    s.Referred k → s.Referred l → c.pid = d.pid → k = l

/-- What the reaper has written, and what a `WaitProcess` call knows after each of its parts. -/
structure Runtime.Tracked (s : Runtime) : Prop where
  recorded : ∀ {c p e status}, s.entry c p = some e → s.Ended e.owner status →
    e.exitCode = status.code ∧ (e.owner, .exitPipeW) ∈ s.closed
  shut : ∀ {k}, (k, .exitPipeW) ∈ s.closed → ∃ status, s.Ended k status
  written : ∀ {x}, x ∈ s.written → x.1 = x.2
  reading : ∀ {i w e}, s.waits.lookup i = some w → w.phase = .reading →
    s.entry w.containerId w.pid = some e → e.owner = w.found → e.exitPipeR = w.exitPipeR
  passed : ∀ {i w e}, s.waits.lookup i = some w → w.phase = .finishing →
    s.entry w.containerId w.pid = some e → e.owner = w.found → (w.found, .exitPipeW) ∈ s.closed
  returned : ∀ {i w code}, s.waits.lookup i = some w → w.phase = .returned code →
    ∃ status, s.Ended w.found status ∧ code = status.code

variable {s t : Runtime} {e : ProcessRecord}

theorem Runtime.Named.unique (h : s.Named k pid name) (h' : s.Named k pid' name') : pid = pid' := by
  obtain ⟨c, hc, rfl, -⟩ := h
  obtain ⟨d, hd, rfl, -⟩ := h'
  cases hc.symm.trans hd
  rfl

theorem Runtime.DistinctPids.eq (hd : s.DistinctPids) (hk : s.Named k pid name)
    (hl : s.Named l pid name') (h : s.Referred k) (h' : s.Referred l) : k = l := by
  obtain ⟨c, hc, hp, -⟩ := hk
  obtain ⟨d, hx, hp', -⟩ := hl
  exact hd k l c d hc hx h h' (hp.trans hp'.symm)

/-- The reaper is not through with the child that it holds. -/
theorem Runtime.Started.holding_not_finished (hs : s.Started)
    (hr : s.reaper = .holding k pid status) : ∀ status', ¬ s.Finished k status' := by
  rintro status' ⟨c, hc, hp⟩
  obtain ⟨d, hd, -, hp'⟩ := hs.holding hr
  cases hc.symm.trans hd
  rcases hp with hp | hp
  · cases hp.symm.trans hp'
  · cases hp.symm.trans hp'

theorem Runtime.Started.holding_not_ended (hs : s.Started)
    (hr : s.reaper = .holding k pid status) : ∀ status', ¬ s.Ended k status' :=
  fun status' h => hs.holding_not_finished hr status' h.finished

theorem Runtime.Started.holding_named (hs : s.Started) (hr : s.reaper = .holding k pid status) :
    ∃ name, s.Named k pid name := by
  obtain ⟨c, hc, hp, -⟩ := hs.holding hr
  exact ⟨_, c, hc, hp, rfl⟩

/-- The record that `find_process` gives the reaper is that of the child. -/
theorem Runtime.DistinctPids.owner_eq (hd : s.DistinctPids) (hs : s.Started)
    (hr : s.reaper = .holding k pid status) (he : s.entry c pid = some e) : e.owner = k := by
  obtain ⟨name, hk⟩ := hs.holding_named hr
  exact hd.eq (hs.entry he) hk (.registered he rfl) (.unfinished (hs.holding_not_finished hr))

/-- The record that a `WaitProcess` call finds again is the one that it found. -/
theorem Runtime.DistinctPids.found_eq (hd : s.DistinctPids) (hs : s.Started)
    (hw : s.waits.lookup i = some w) (hp : w.phase.pending)
    (he : s.entry w.containerId w.pid = some e) : e.owner = w.found :=
  hd.eq (hs.entry he) (hs.wait hw) (.registered he rfl) (.awaited hw hp rfl)

theorem Runtime.Tracked.closesOnce (ht : s.Tracked) (hs : s.Started) (hd : s.DistinctPids)
    (a : RuntimeAction) : s.ClosesOnce a := by
  cases a with
  | record containerId =>
    intro pid hp e he hc
    cases hr : s.reaper with
    | holding k pid' status =>
      rw [hr] at hp
      cases hp
      rw [hd.owner_eq hs hr he] at hc
      obtain ⟨status', h⟩ := ht.shut hc
      exact hs.holding_not_ended hr status' h
    | _ =>
      rw [hr] at hp
      cases hp
  | _ => trivial

theorem Runtime.Tracked.frame (ht : s.Tracked)
    (hE : ∀ k status, t.Ended k status ↔ s.Ended k status)
    (he : ∀ c p e, t.entry c p = some e → ∃ e', s.entry c p = some e' ∧ e'.owner = e.owner ∧
      e'.exitCode = e.exitCode ∧ e'.exitPipeR = e.exitPipeR)
    (hc : ∀ k, (k, .exitPipeW) ∈ t.closed ↔ (k, .exitPipeW) ∈ s.closed)
    (hwr : t.written = s.written)
    (hw : ∀ i w, t.waits.lookup i = some w → w.phase = .panicked ∨ s.waits.lookup i = some w) :
    t.Tracked where
  recorded := by
    intro c p e status h hE'
    obtain ⟨e', h', ho, hx, -⟩ := he c p e h
    rw [← ho] at hE' ⊢
    rw [← hx, hc]
    exact ht.recorded h' ((hE _ _).1 hE')
  shut := by
    intro k h
    obtain ⟨status, h⟩ := ht.shut ((hc k).1 h)
    exact ⟨status, (hE _ _).2 h⟩
  written h := ht.written (hwr ▸ h)
  reading := by
    intro i w e h hp hen ho
    obtain ⟨e', h', ho', -, hx⟩ := he _ _ e hen
    rcases hw i w h with hpan | h
    · cases hp.symm.trans hpan
    · rw [← hx]
      exact ht.reading h hp h' (ho'.trans ho)
  passed := by
    intro i w e h hp hen ho
    obtain ⟨e', h', ho', -, -⟩ := he _ _ e hen
    rcases hw i w h with hpan | h
    · cases hp.symm.trans hpan
    · exact (hc _).2 (ht.passed h hp h' (ho'.trans ho))
  returned := by
    intro i w code h hp
    rcases hw i w h with hpan | h
    · cases hp.symm.trans hpan
    · obtain ⟨status, hE', rfl⟩ := ht.returned h hp
      exact ⟨status, (hE _ _).2 hE', rfl⟩

theorem Runtime.ended_setPhase (h : s.children.lookup k = some c) (phase : ChildPhase)
    (x : Nat) (status : WaitStatus) : (s.setPhase k phase).Ended x status ↔
      if x = k then phase = .handled status else s.Ended x status := by
  rw [Runtime.Ended]
  rw [Runtime.lookup_setPhase h]
  split
  · constructor
    · rintro ⟨d, hd, hp⟩
      cases hd
      exact hp
    · intro hp
      exact ⟨_, rfl, hp⟩
  · exact .rfl

/-- A child that was not at its end moves to a phase that is not the end either. -/
theorem Runtime.ended_setPhase_before (h : s.children.lookup k = some c)
    (hc : ∀ status, c.phase ≠ .handled status) (hp : ∀ status, phase ≠ .handled status) (x : Nat)
    (status : WaitStatus) : (s.setPhase k phase).Ended x status ↔ s.Ended x status := by
  rw [Runtime.ended_setPhase h]
  split
  · rename_i hx
    subst hx
    constructor
    · exact fun hph => absurd hph (hp status)
    · rintro ⟨d, hd, hph⟩
      cases h.symm.trans hd
      exact absurd hph (hc status)
  · exact .rfl

/-- What has ended is not the child that the reaper holds. -/
theorem Runtime.Ended.setPhase_held (hE : s.Ended x st) (hs : s.Started)
    (hr : s.reaper = .holding k pid status) (phase : ChildPhase) :
    (s.setPhase k phase).Ended x st := by
  obtain ⟨c, hk, -, -⟩ := hs.holding hr
  rw [Runtime.ended_setPhase hk, if_neg]
  · exact hE
  · rintro rfl
    exact hs.holding_not_ended hr st hE

theorem Runtime.Finished.setPhase_held (h : s.Finished x st) (hs : s.Started)
    (hr : s.reaper = .holding k pid status) (phase : ChildPhase) :
    (s.setPhase k phase).Finished x st := by
  obtain ⟨c, hk, -, hph⟩ := hs.holding hr
  apply h.setPhase hk
  simp [hph]

theorem Runtime.ended_register : (s.register st pid).Ended x status ↔ s.Ended x status := by
  unfold Runtime.Ended
  rw [Runtime.register_children]

theorem Runtime.ended_insert (h : s.children.lookup k = none) (hc : c.phase = .running)
    (ht : t.children = s.children.insert k c) (x : Nat) (status : WaitStatus) :
    t.Ended x status ↔ s.Ended x status := by
  constructor
  · exact fun hE => (hE.of_insert hc ht).2
  · rintro ⟨d, hd, hp⟩
    have hne : x ≠ k := by
      rintro rfl
      cases h.symm.trans hd
    exact ⟨d, by rw [ht, Table.lookup_insert, if_neg hne, hd], hp⟩

theorem Runtime.exitPipeW_mem_closeAll {fds : List (Slot × RawFd)}
    (h : ∀ fd, (.exitPipeW, fd) ∉ fds) (owner k : Nat) :
    (k, .exitPipeW) ∈ (s.closeAll owner fds).closed ↔ (k, .exitPipeW) ∈ s.closed := by
  rw [Runtime.mem_closed_closeAll]
  constructor
  · rintro (hc | ⟨-, fd, hm⟩)
    · exact hc
    · exact absurd hm (h fd)
  · exact .inl

/-- No record is that of a child of which the reaper finds none. -/
theorem Runtime.Started.owner_ne (hs : s.Started) (hh : s.Held)
    (hr : s.reaper = .holding k pid status)
    (hf : s.holders pid = ∅ ∨ ∃ e, s.entry containerId pid = some e ∧ e.exitPipeW = none)
    (he : s.entry c p = some e) : e.owner ≠ k := by
  rintro rfl
  rcases hf with hf | ⟨e', he', hw⟩
  · obtain ⟨name, hk⟩ := hs.holding_named hr
    rw [(hs.entry he).unique hk, Runtime.holders_eq_empty hf] at he
    cases he
  · exact (hh.entry he').exitW hw

theorem Runtime.Tracked.endRound (ht : s.Tracked) (hs : s.Started)
    (hr : s.reaper = .holding k pid status)
    (hne : ∀ {c p e}, s.entry c p = some e → e.owner ≠ k) : (s.endRound k status).Tracked := by
  obtain ⟨x, hk, -, -⟩ := hs.holding hr
  have hE : ∀ y st, (s.endRound k status).Ended y st ↔
      if y = k then ChildPhase.handled status = .handled st else s.Ended y st :=
    Runtime.ended_setPhase hk _
  have hmono : ∀ {y st}, s.Ended y st → (s.endRound k status).Ended y st :=
    fun h => h.setPhase_held hs hr _
  exact {
    recorded := by
      intro c p e st he h
      rw [hE, if_neg (hne he)] at h
      exact ht.recorded he h
    shut := by
      intro y h
      obtain ⟨st, h⟩ := ht.shut h
      exact ⟨st, hmono h⟩
    written := ht.written
    reading := ht.reading
    passed := ht.passed
    returned := by
      intro i w code hw hp
      obtain ⟨st, h, hx⟩ := ht.returned hw hp
      exact ⟨st, hmono h, hx⟩ }

theorem Runtime.Tracked.writeExit (ht : s.Tracked) (hs : s.Started) (hh : s.Held)
    (hr : s.reaper = .holding k pid status) (he : s.entry containerId pid = some e)
    (ho : e.owner = k) : (s.writeExit containerId k pid status e pipeWrite).Tracked := by
  obtain ⟨x, hk, -, -⟩ := hs.holding hr
  have hE : ∀ y st, (s.writeExit containerId k pid status e pipeWrite).Ended y st ↔
      if y = k then ChildPhase.handled status = .handled st else s.Ended y st :=
    Runtime.ended_setPhase hk _
  have hmono : ∀ {y st}, s.Ended y st →
      (s.writeExit containerId k pid status e pipeWrite).Ended y st :=
    fun h => h.setPhase_held hs hr _
  have hc : ∀ {y : Nat × Slot}, y ∈ (s.writeExit containerId k pid status e pipeWrite).closed ↔
      y ∈ s.closed ∨ y = (k, .exitPipeW) := by
    intro y
    simp [Runtime.writeExit, Runtime.endRound, Runtime.setPhase, Runtime.closeAll,
      Runtime.setEntry, ho]
  have hent : ∀ {c p a},
      (s.writeExit containerId k pid status e pipeWrite).entry c p = some a →
        ∃ a', s.entry c p = some a' ∧ a'.owner = a.owner ∧ a'.exitPipeR = a.exitPipeR ∧
          (a.owner = k ∧ a.exitCode = status.code ∨ a.owner ≠ k ∧ a' = a) := by
    intro c p a ha
    rcases Runtime.entry_setEntry ha with ⟨rfl, rfl, rfl⟩ | ⟨hne, ha⟩
    · exact ⟨e, he, rfl, rfl, .inl ⟨ho, rfl⟩⟩
    · have hown : a.owner ≠ k := fun h => hne (hh.owner_inj ha he (h.trans ho.symm))
      exact ⟨a, ha, rfl, rfl, .inr ⟨hown, rfl⟩⟩
  exact {
    recorded := by
      intro c p a st ha h
      obtain ⟨a', ha', ho', -, ⟨hk', hx⟩ | ⟨hk', rfl⟩⟩ := hent ha
      · rw [hE, if_pos hk'] at h
        cases h
        exact ⟨hx, hc.2 (.inr (by rw [hk']))⟩
      · rw [hE, if_neg hk'] at h
        exact (ht.recorded ha' h).imp_right fun h => hc.2 (.inl h)
    shut := by
      intro y h
      rcases hc.1 h with h | h
      · obtain ⟨st, h⟩ := ht.shut h
        exact ⟨st, hmono h⟩
      · cases h
        exact ⟨status, (hE _ _).2 (by rw [if_pos rfl])⟩
    written := by
      intro y h
      rcases List.mem_append.1 h with h | h
      · exact ht.written h
      · cases List.mem_singleton.1 h
        exact ho.symm
    reading := by
      intro i w a hw hp ha hf
      obtain ⟨a', ha', ho', hx, -⟩ := hent ha
      rw [← hx]
      exact ht.reading hw hp ha' (ho'.trans hf)
    passed := by
      intro i w a hw hp ha hf
      obtain ⟨a', ha', ho', -, -⟩ := hent ha
      exact hc.2 (.inl (ht.passed hw hp ha' (ho'.trans hf)))
    returned := by
      intro i w code hw hp
      obtain ⟨st, h, hx⟩ := ht.returned hw hp
      exact ⟨st, hmono h, hx⟩ }

theorem Runtime.Tracked.register (ht : s.Tracked) (hs : s.Started) (hst : s.starting = some st)
    (hp : st.child = some pid) : (s.register st pid).Tracked := by
  have hcl : (s.register st pid).closed = s.closed := Runtime.register_closed
  have hwr : (s.register st pid).written = s.written := Runtime.register_written
  have hws : (s.register st pid).waits = s.waits := Runtime.register_waits
  have hnew := (hs.forked hst hp).2
  exact {
    recorded := by
      intro c p e status he h
      rw [Runtime.ended_register] at h
      rw [hcl]
      rcases Runtime.entry_register he with ⟨-, -, rfl⟩ | ⟨-, he⟩
      · exact absurd h (hnew status)
      · exact ht.recorded he h
    shut := by
      intro k h
      obtain ⟨status, h⟩ := ht.shut (hcl ▸ h)
      exact ⟨status, Runtime.ended_register.2 h⟩
    written := fun h => ht.written (hwr ▸ h)
    reading := by
      intro i w e hw hph he ho
      rw [hws] at hw
      rcases Runtime.entry_register he with ⟨-, -, rfl⟩ | ⟨-, he⟩
      · exact absurd ho.symm (hs.awaited hst hw)
      · exact ht.reading hw hph he ho
    passed := by
      intro i w e hw hph he ho
      rw [hws] at hw
      rw [hcl]
      rcases Runtime.entry_register he with ⟨-, -, rfl⟩ | ⟨-, he⟩
      · exact absurd ho.symm (hs.awaited hst hw)
      · exact ht.passed hw hph he ho
    returned := by
      intro i w code hw hph
      obtain ⟨status, h, hx⟩ := ht.returned (hws ▸ hw) hph
      exact ⟨status, Runtime.ended_register.2 h, hx⟩ }

theorem Runtime.Tracked.waitLookup (ht : s.Tracked) (hh : s.Held)
    (he : s.entry containerId pid = some e) (i : Nat) (execId : String) :
    Runtime.Tracked { s with
      waits := s.waits.insert i ⟨containerId, execId, pid, e.exitPipeR, e.owner,
        if e.exitPipeR = none then .finishing else .reading⟩ } := by
  have hx := (hh.entry he).exitR
  rw [if_neg hx]
  have hold : ∀ {j w}, (s.waits.insert i ⟨containerId, execId, pid, e.exitPipeR, e.owner,
      .reading⟩).lookup j = some w → (w = ⟨containerId, execId, pid, e.exitPipeR, e.owner,
        .reading⟩) ∨ s.waits.lookup j = some w := by
    intro j w h
    exact (Table.of_lookup_insert h).imp And.right And.right
  exact {
    recorded := ht.recorded
    shut := ht.shut
    written := ht.written
    reading := by
      intro j w a hw hp ha ho
      rcases hold hw with rfl | hw
      · cases he.symm.trans ha
        rfl
      · exact ht.reading hw hp ha ho
    passed := by
      intro j w a hw hp ha ho
      rcases hold hw with rfl | hw
      · cases hp
      · exact ht.passed hw hp ha ho
    returned := by
      intro j w code hw hp
      rcases hold hw with rfl | hw
      · cases hp
      · exact ht.returned hw hp }

/-- The exit pipe of a record blocks its reader until the reaper has closed the other end. -/
theorem Runtime.Held.blocks (hh : s.Held) (he : s.entry c p = some e) (hr : e.exitPipeR = some fd)
    (hc : (e.owner, .exitPipeW) ∉ s.closed) : s.blocks fd := by
  have hx := hh.entry he
  obtain ⟨w, hw⟩ := Option.ne_none_iff_exists'.1 hx.exitW
  have hrf : s.files.lookup fd = some (.start e.owner .exitPipeR) :=
    hx.fd_file hr (hx.fd_open hr (by decide))
  have hwf : s.files.lookup w = some (.start e.owner .exitPipeW) := hx.fd_file hw hc
  exact ⟨e.owner, by rw [hrf]; rfl, .inl (Runtime.mem_exitWriters.2 ⟨w, hwf⟩)⟩

theorem Runtime.Tracked.waitRead (ht : s.Tracked) (hh : s.Held) (hw : s.waits.lookup i = some w)
    (hp : w.phase = .reading) (hr : w.exitPipeR = some fd) (hb : ¬ s.blocks fd) :
    (s.setWait i .finishing).Tracked where
  recorded := ht.recorded
  shut := ht.shut
  written := ht.written
  reading := by
    intro j x e hx hph he ho
    have hx' := Runtime.waits_of_phase_ne hx fun h => by cases hph.symm.trans h
    exact ht.reading hx' hph he ho
  passed := by
    intro j x e hx hph he ho
    rcases Runtime.lookup_setWait hx with ⟨-, hy⟩ | ⟨-, x', hy, rfl⟩
    · exact ht.passed hy hph he ho
    · cases hw.symm.trans hy
      have hfd : e.exitPipeR = some fd := (ht.reading hw hp he ho).trans hr
      have hcl : (e.owner, .exitPipeW) ∈ s.closed := by
        by_contra hcl
        exact hb (hh.blocks he hfd hcl)
      rw [ho] at hcl
      exact hcl
  returned := by
    intro j x code hx hph
    have hx' := Runtime.waits_of_phase_ne hx fun h => by cases hph.symm.trans h
    exact ht.returned hx' hph

theorem Runtime.Tracked.waitReturn (ht : s.Tracked) (hw : s.waits.lookup i = some w)
    (hp : w.phase = .finishing) (he : s.entry w.containerId w.pid = some e)
    (ho : e.owner = w.found) :
    (((s.closeAll e.owner (e.fds waitSlots)).removeEntry w.containerId w.pid).setWait i
      (.returned e.exitCode)).Tracked := by
  have hnw : ∀ fd, (.exitPipeW, fd) ∉ e.fds waitSlots := fun fd hm =>
    absurd (ProcessRecord.mem_fds.1 hm).1 (by decide)
  have hcl := Runtime.exitPipeW_mem_closeAll (s := s) hnw e.owner
  exact {
    recorded := by
      intro c p a status ha h
      exact (ht.recorded (Runtime.entry_removeEntry ha).2 h).imp_right (hcl _).2
    shut := fun h => ht.shut ((hcl _).1 h)
    written := ht.written
    reading := by
      intro j x a hx hph ha hown
      have hx' := Runtime.waits_of_phase_ne hx fun h => by cases hph.symm.trans h
      exact ht.reading hx' hph (Runtime.entry_removeEntry ha).2 hown
    passed := by
      intro j x a hx hph ha hown
      have hx' := Runtime.waits_of_phase_ne hx fun h => by cases hph.symm.trans h
      exact (hcl _).2 (ht.passed hx' hph (Runtime.entry_removeEntry ha).2 hown)
    returned := by
      intro j x code hx hph
      rcases Runtime.lookup_setWait hx with ⟨-, hy⟩ | ⟨-, x', hy, rfl⟩
      · exact ht.returned hy hph
      · cases hw.symm.trans hy
        cases hph
        obtain ⟨status, hE⟩ := ht.shut (ht.passed hw hp he ho)
        exact ⟨status, hE, (ht.recorded he (ho ▸ hE)).1⟩ }

theorem Runtime.Tracked.step (ht : s.Tracked) (hs : s.Started) (hh : s.Held)
    (hd : s.DistinctPids) (h : s.step a = some t) : t.Tracked := by
  have hE : ∀ k status, s.Ended k status ↔ s.Ended k status := fun _ _ => .rfl
  have hen : ∀ c p e, s.entry c p = some e → ∃ e', s.entry c p = some e' ∧ e'.owner = e.owner ∧
      e'.exitCode = e.exitCode ∧ e'.exitPipeR = e.exitPipeR := fun _ _ e h => ⟨e, h, rfl, rfl, rfl⟩
  have hcl : ∀ k, (k, .exitPipeW) ∈ s.closed ↔ (k, .exitPipeW) ∈ s.closed := fun _ => .rfl
  have hwt : ∀ i w, s.waits.lookup i = some w → w.phase = .panicked ∨ s.waits.lookup i = some w :=
    fun _ _ h => .inr h
  have hera : ∀ {cid} c p e,
      Runtime.entry { s with containers := s.containers.erase cid } c p = some e →
      ∃ e', s.entry c p = some e' ∧ e'.owner = e.owner ∧ e'.exitCode = e.exitCode ∧
        e'.exitPipeR = e.exitPipeR := fun _ _ e h => ⟨e, Runtime.entry_erase h, rfl, rfl, rfl⟩
  cases Runtime.step_effect h with
  | spawn hp =>
    have hnew := hs.next_unused
    exact ht.frame (Runtime.ended_insert hnew rfl rfl) hen hcl rfl hwt
  | exit hk hp =>
    have hc : ∀ status, _ ≠ ChildPhase.handled status := fun _ h => by cases hp.symm.trans h
    exact ht.frame (Runtime.ended_setPhase_before hk hc fun _ h => by cases h) hen hcl rfl hwt
  | reap hi hk hp =>
    have hc : ∀ status, _ ≠ ChildPhase.handled status := fun _ h => by cases hp.symm.trans h
    exact ht.frame (Runtime.ended_setPhase_before hk hc fun _ h => by cases h) hen hcl rfl hwt
  | lose hk hp =>
    have hc : ∀ status, _ ≠ ChildPhase.handled status := fun _ h => by cases hp.symm.trans h
    exact ht.frame (Runtime.ended_setPhase_before hk hc fun _ h => by cases h) hen hcl rfl hwt
  | endRound hr hst hf => exact ht.endRound hs hr fun he => hs.owner_ne hh hr hf he
  | writeExit hr hst he hw => exact ht.writeExit hs hh hr he (hd.owner_eq hs hr he)
  | @closeAt st rest slot fd n hst hr hfd =>
    have hleft : slot.left = false := (hh.start hst).tidy.leaves (hr ▸ List.mem_cons_self)
    have hnw : ∀ fd', (.exitPipeW, fd') ∉ [(slot, fd)] := by
      intro fd' hm
      cases List.mem_singleton.1 hm
      cases hleft
    exact ht.frame hE hen (Runtime.exitPipeW_mem_closeAll hnw st.id) rfl hwt
  | fork hst hr hp =>
    have hnew := hs.unforked hst (hr ▸ List.mem_cons_self)
    exact ht.frame (Runtime.ended_insert hnew rfl rfl) hen hcl rfl hwt
  | register hst hr hp => exact ht.register hs hst hp
  | waitLookup hf hi => exact ht.waitLookup hh (Runtime.found_eq_some.1 hf).2.1 _ _
  | waitRead hw hp hr hb => exact ht.waitRead hh hw hp hr hb
  | waitPanic hw hp hst hn =>
    refine ht.frame hE hen hcl rfl fun j x hx => ?_
    rcases Runtime.lookup_setWait hx with ⟨-, hx⟩ | ⟨-, x', -, rfl⟩
    · exact .inr hx
    · exact .inl rfl
  | waitReturn hw hp hst hn he =>
    exact ht.waitReturn hw hp he (hd.found_eq hs hw (by rw [hp]; trivial) he)
  | @closeStdin c eid p e hf =>
    obtain ⟨-, he, -⟩ := Runtime.found_eq_some.1 hf
    have hnw : ∀ fd, (.exitPipeW, fd) ∉ e.fds [.termMaster, .parentStdin] := fun fd hm =>
      absurd (ProcessRecord.mem_fds.1 hm).1 (by decide)
    refine ht.frame hE (fun c p a ha => ?_) (Runtime.exitPipeW_mem_closeAll hnw e.owner) rfl hwt
    apply Runtime.entry_of_setEntry he ha ⟨rfl, rfl, rfl⟩
    exact fun _ => ⟨rfl, rfl, rfl⟩
  | removeFail => exact ht
  | removeContainer hl => exact ht.frame hE hera hcl rfl hwt
  | removeDestroyed hl hr => exact ht.frame hE hera hcl rfl hwt
  | _ => exact ht.frame hE hen hcl rfl hwt

theorem Runtime.Tracked.boot (h : processRuntime.init s) : s.Tracked := by
  obtain ⟨files, -, rfl⟩ := h
  exact {
    recorded := fun h => by cases h
    shut := fun h => by cases h
    written := fun h => by cases h
    reading := fun h => by cases h
    passed := fun h => by cases h
    returned := fun h => by cases h }

structure Runtime.Sound (s : Runtime) : Prop where
  held : s.Held
  started : s.Started
  tracked : s.Tracked

theorem Runtime.Sound.step (hs : s.Sound) (hd : s.DistinctPids) (h : s.step a = some t) :
    t.Sound where
  held := hs.held.step (hs.tracked.closesOnce hs.started hd a) h
  started := by
    refine hs.started.step (fun st hst => ?_) h
    exact ⟨(hs.held.start hst).id_lt, (hs.held.start hst).tidy⟩
  tracked := hs.tracked.step hs.started hs.held hd h

theorem Runtime.Sound.boot (h : processRuntime.init s) : s.Sound := ⟨.boot h, .boot h, .boot h⟩

end KataAgent
