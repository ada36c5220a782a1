import KataAgent.DescriptorOwnership

namespace KataAgent
open Transition
set_option autoImplicit true

/-- The child has the pid, and was forked for the process of that name if there is one. -/
def Runtime.Named (s : Runtime) (k : Nat) (pid : Pid) (name : Option (String × String)) : Prop :=
  ∃ c, s.children.lookup k = some c ∧ c.pid = pid ∧ c.startedFor.map StartRequest.name = name

/-- The reaper has finished with the child, which ended with the status. -/
def Runtime.Ended (s : Runtime) (k : Nat) (status : WaitStatus) : Prop :=
  ∃ c, s.children.lookup k = some c ∧ c.phase = .handled status

/-- The reaper is through with the child, also when it did not get the status. -/
def Runtime.Finished (s : Runtime) (k : Nat) (status : WaitStatus) : Prop :=
  ∃ c, s.children.lookup k = some c ∧ (c.phase = .handled status ∨ c.phase = .lost status)

/-- Where the agent remembers a child, it remembers its pid and its name. -/
structure Runtime.Started (s : Runtime) : Prop where
  child_lt : ∀ {k c}, s.children.lookup k = some c → k < s.next
  entry : ∀ {c p e}, s.entry c p = some e → s.Named e.owner p (some (c, e.execId))
  unforked : ∀ {st}, s.starting = some st → .fork ∈ st.rest → s.children.lookup st.id = none
  forked : ∀ {st pid}, s.starting = some st → st.child = some pid →
    s.Named st.id pid (some (st.request.containerId, st.request.execId)) ∧
      ∀ status, ¬ s.Ended st.id status
  awaited : ∀ {st i w}, s.starting = some st → s.waits.lookup i = some w → w.found ≠ st.id
  holding : ∀ {k pid status}, s.reaper = .holding k pid status →
    ∃ c, s.children.lookup k = some c ∧ c.pid = pid ∧ c.phase = .reaped status
  wait : ∀ {i w}, s.waits.lookup i = some w →
    s.Named w.found w.pid (some (w.containerId, w.execId))
  read : ∀ {i r}, s.reads.lookup i = some r →
    ∃ pid, s.Named r.found pid (some (r.containerId, r.execId))

variable {s t : Runtime} {e : ProcessRecord}

/-- A running start has a number that is given out, and each of its steps left at most once. -/
def Runtime.StartTidy (s : Runtime) : Prop :=
  ∀ st, s.starting = some st → st.id < s.next ∧ Tidy st.rest

theorem Runtime.StartTidy.advance (hs : s.StartTidy) (hst : s.starting = some st)
    (hr : st.rest = i :: rest) : st.id < s.next ∧ Tidy rest := by
  obtain ⟨hlt, ht⟩ := hs st hst
  rw [hr] at ht
  exact ⟨hlt, ht.tail⟩

theorem Runtime.StartTidy.step (hs : s.StartTidy) (h : s.step a = some t) : t.StartTidy := by
  cases Runtime.step_effect h with
  | spawn hp =>
    intro st hst
    obtain ⟨hlt, ht⟩ := hs st hst
    exact ⟨Nat.lt_succ_of_lt hlt, ht⟩
  | begin hl =>
    rintro _ ⟨⟩
    exact ⟨Nat.lt_succ_self _, StartRequest.program_tidy _⟩
  | openAt hst hr hn =>
    have ha := hs.advance hst hr
    rintro _ ⟨⟩
    exact ha
  | closeAt hst hr hfd =>
    have ha := hs.advance hst hr
    rintro _ ⟨⟩
    exact ha
  | getContainer hst hr hm =>
    have ha := hs.advance hst hr
    rintro _ ⟨⟩
    exact ha
  | makeFifo hst hr hm =>
    have ha := hs.advance hst hr
    rintro _ ⟨⟩
    exact ha
  | fork hst hr hp =>
    have ha := hs.advance hst hr
    rintro _ ⟨⟩
    exact ha
  | register hst hr hp =>
    intro st h
    cases Runtime.register_starting.symm.trans h
  | abandon hst =>
    intro st h
    cases h
  | _ => exact hs

theorem Runtime.Started.frame (hs : s.Started) (hc : t.children = s.children)
    (hn : s.next ≤ t.next)
    (he : ∀ c p e, t.entry c p = some e →
      ∃ e', s.entry c p = some e' ∧ e'.owner = e.owner ∧ e'.execId = e.execId)
    (hst : ∀ st, t.starting = some st → s.starting = some st)
    (hr : ∀ k pid status, t.reaper = .holding k pid status → s.reaper = .holding k pid status)
    (hw : ∀ i w, t.waits.lookup i = some w → ∃ w', s.waits.lookup i = some w' ∧
      w = { w' with phase := w.phase })
    (hrd : ∀ i r, t.reads.lookup i = some r → ∃ r', s.reads.lookup i = some r' ∧
      r = { r' with phase := r.phase }) : t.Started := by
  have hnm : ∀ {k pid name}, s.Named k pid name → t.Named k pid name := by
    intro k pid name h
    rw [Runtime.Named]
    rw [hc]
    exact h
  have hen : ∀ {k status}, t.Ended k status → s.Ended k status := by
    intro k status h
    rw [Runtime.Ended] at h
    rw [hc] at h
    exact h
  exact {
    child_lt := fun h => (hs.child_lt (hc ▸ h)).trans_le hn
    entry := by
      intro c p e h
      obtain ⟨e', h', ho, hx⟩ := he c p e h
      rw [← ho, ← hx]
      exact hnm (hs.entry h')
    unforked := fun h hf => hc ▸ hs.unforked (hst _ h) hf
    forked := by
      intro st pid h hp
      obtain ⟨h1, h2⟩ := hs.forked (hst _ h) hp
      exact ⟨hnm h1, fun status h => h2 status (hen h)⟩
    awaited := by
      intro st i w h hi
      obtain ⟨w', h', heq⟩ := hw i w hi
      rw [heq]
      have hne : w'.found ≠ st.id := hs.awaited (hst _ h) h'
      exact hne
    holding := fun h => hc ▸ hs.holding (hr _ _ _ h)
    wait := by
      intro i w h
      obtain ⟨w', h', heq⟩ := hw i w h
      rw [heq]
      have hx := hnm (hs.wait h')
      exact hx
    read := by
      intro i r h
      obtain ⟨r', h', heq⟩ := hrd i r h
      obtain ⟨pid, hp⟩ := hs.read h'
      rw [heq]
      exact ⟨pid, hnm hp⟩ }

theorem Runtime.lookup_setPhase (h : s.children.lookup k = some c) (phase : ChildPhase) (x : Nat) :
    (s.setPhase k phase).children.lookup x =
      if x = k then some { c with phase := phase } else s.children.lookup x := by
  rw [Runtime.setPhase, Table.lookup_update, h]
  rfl

theorem Runtime.Named.setPhase (h : s.Named x pid name) (k : Nat) (phase : ChildPhase) :
    (s.setPhase k phase).Named x pid name := by
  obtain ⟨c, hc, rfl, rfl⟩ := h
  unfold Runtime.Named Runtime.setPhase
  dsimp only
  rw [Table.lookup_update]
  split
  · rename_i hx
    rw [← hx, hc]
    exact ⟨_, rfl, rfl, rfl⟩
  · exact ⟨c, hc, rfl, rfl⟩

/-- A child moves on to a phase before the last; during a start no child moves to the last. -/
theorem Runtime.Started.setPhase (hs : s.Started) (h : s.children.lookup k = some c)
    (hp : (∀ status, phase ≠ .handled status) ∨ s.starting = none)
    (hr : ∀ k' pid status, r = .holding k' pid status →
      k' = k ∧ pid = c.pid ∧ phase = .reaped status ∨
        k' ≠ k ∧ s.reaper = .holding k' pid status) :
    Runtime.Started { s.setPhase k phase with reaper := r } where
  child_lt := by
    intro x d hx
    change (s.setPhase k phase).children.lookup x = some d at hx
    rw [Runtime.lookup_setPhase h] at hx
    split at hx
    · rename_i hk
      rw [hk]
      exact hs.child_lt h
    · exact hs.child_lt hx
  entry he := (hs.entry he).setPhase k phase
  unforked := by
    intro st hst hf
    change (s.setPhase k phase).children.lookup st.id = none
    rw [Runtime.lookup_setPhase h, if_neg, hs.unforked hst hf]
    intro hk
    rw [← hk, hs.unforked hst hf] at h
    cases h
  forked := by
    intro st pid hst hc
    obtain ⟨h1, h2⟩ := hs.forked hst hc
    constructor
    · exact h1.setPhase k phase
    · rintro status ⟨d, hd, hph⟩
      change (s.setPhase k phase).children.lookup st.id = some d at hd
      rw [Runtime.lookup_setPhase h] at hd
      split at hd
      · cases hd
        rcases hp with hp | hp
        · exact hp status hph
        · cases hp.symm.trans hst
      · exact h2 status ⟨d, hd, hph⟩
  awaited := hs.awaited
  holding := by
    intro k' pid status hk
    rw [show Runtime.children { s.setPhase k phase with reaper := r } =
      (s.setPhase k phase).children from rfl, Runtime.lookup_setPhase h]
    rcases hr k' pid status hk with ⟨rfl, rfl, rfl⟩ | ⟨hne, hk⟩
    · rw [if_pos rfl]
      exact ⟨_, rfl, rfl, rfl⟩
    · rw [if_neg hne]
      exact hs.holding hk
  wait hw := (hs.wait hw).setPhase k phase
  read hw := by
    obtain ⟨pid, hp⟩ := hs.read hw
    exact ⟨pid, hp.setPhase k phase⟩

/-- A child that is added was not there. -/
theorem Runtime.Named.insert (h : s.Named x pid name) (hk : s.children.lookup k = none)
    (ht : t.children = s.children.insert k c) : t.Named x pid name := by
  obtain ⟨d, hd, h⟩ := h
  have hne : x ≠ k := by
    rintro rfl
    cases hk.symm.trans hd
  exact ⟨d, by rw [ht, Table.lookup_insert, if_neg hne, hd], h⟩

theorem Runtime.Ended.of_insert (h : t.Ended x status) (hk : c.phase = .running)
    (ht : t.children = s.children.insert k c) : x ≠ k ∧ s.Ended x status := by
  obtain ⟨d, hd, hph⟩ := h
  rw [ht] at hd
  rcases Table.of_lookup_insert hd with ⟨-, rfl⟩ | ⟨hx, hd⟩
  · rw [hk] at hph
    cases hph
  · exact ⟨hx, d, hd, hph⟩

theorem Runtime.Ended.finished (h : s.Ended k status) : s.Finished k status := by
  obtain ⟨c, hc, hp⟩ := h
  exact ⟨c, hc, .inl hp⟩

theorem Runtime.Finished.insert (h : s.Finished x status) (hk : s.children.lookup k = none)
    (ht : t.children = s.children.insert k c) : t.Finished x status := by
  obtain ⟨d, hd, h⟩ := h
  have hne : x ≠ k := by
    rintro rfl
    cases hk.symm.trans hd
  exact ⟨d, by rw [ht, Table.lookup_insert, if_neg hne, hd], h⟩

/-- The child that moves on was not at its end. -/
theorem Runtime.Finished.setPhase (h : s.Finished x status) (hk : s.children.lookup k = some c)
    (hc : ∀ status, c.phase ≠ .handled status ∧ c.phase ≠ .lost status) (phase : ChildPhase) :
    (s.setPhase k phase).Finished x status := by
  obtain ⟨d, hd, h⟩ := h
  apply Exists.intro d
  rw [Runtime.lookup_setPhase hk, if_neg]
  · exact ⟨hd, h⟩
  · rintro rfl
    cases hk.symm.trans hd
    rcases h with h | h
    · exact (hc status).1 h
    · exact (hc status).2 h

/-- The next number is that of no child. -/
theorem Runtime.Started.next_unused (hs : s.Started) : s.children.lookup s.next = none := by
  cases h : s.children.lookup s.next with
  | none => rfl
  | some c => exact absurd (hs.child_lt h) (Nat.lt_irrefl _)

theorem Runtime.Started.spawn (hs : s.Started) (pid : Pid) (copies : Finset Nat)
    (hid : ∀ st, s.starting = some st → st.id < s.next) : Runtime.Started { s with
      next := s.next + 1
      children := s.children.insert s.next ⟨pid, .running, none⟩
      inherited := s.inherited.insert s.next copies } := by
  have hnew := hs.next_unused
  have hne : ∀ {k}, k ≠ s.next → (s.children.insert s.next ⟨pid, .running, none⟩).lookup k =
      s.children.lookup k := fun h => by rw [Table.lookup_insert, if_neg h]
  exact {
    child_lt := by
      intro k c h
      dsimp only at h ⊢
      rcases Table.of_lookup_insert h with ⟨rfl, -⟩ | ⟨-, h⟩
      · exact Nat.lt_succ_self _
      · exact (hs.child_lt h).trans (Nat.lt_succ_self _)
    entry := fun he => (hs.entry he).insert hnew rfl
    unforked := fun hst hf => (hne (hid _ hst).ne).trans (hs.unforked hst hf)
    forked := by
      intro st p hst hc
      obtain ⟨h1, h2⟩ := hs.forked hst hc
      exact ⟨h1.insert hnew rfl, fun status h => h2 status (h.of_insert rfl rfl).2⟩
    awaited := hs.awaited
    holding := by
      intro k p status h
      obtain ⟨c, hc, h⟩ := hs.holding h
      exact ⟨c, (hne (hs.child_lt hc).ne).trans hc, h⟩
    wait := fun hw => (hs.wait hw).insert hnew rfl
    read := fun hr => by
      obtain ⟨p, hp⟩ := hs.read hr
      exact ⟨p, hp.insert hnew rfl⟩ }

theorem Runtime.Started.fork (hs : s.Started) (ht : s.StartTidy) (hst : s.starting = some st)
    (hr : st.rest = .fork :: rest) : Runtime.Started { s with
      children := s.children.insert st.id
        ⟨pid, .running, some st.request⟩
      inherited := s.inherited.insert st.id s.exitWriters
      starting := some { st with rest := rest, child := some pid } } := by
  have hnew : s.children.lookup st.id = none := hs.unforked hst (hr ▸ List.mem_cons_self)
  have htidy : Tidy (.fork :: rest) := hr ▸ (ht st hst).2
  exact {
    child_lt := by
      intro k c h
      dsimp only at h ⊢
      rcases Table.of_lookup_insert h with ⟨rfl, -⟩ | ⟨-, h⟩
      · exact (ht st hst).1
      · exact hs.child_lt h
    entry := fun he => (hs.entry he).insert hnew rfl
    unforked := by
      rintro _ ⟨⟩ hf
      exact absurd hf htidy.head_notMem
    forked := by
      rintro _ p ⟨⟩ ⟨⟩
      constructor
      · exact ⟨_, by rw [Table.lookup_insert, if_pos rfl], rfl, rfl⟩
      · exact fun status h => (h.of_insert rfl rfl).1 rfl
    awaited := by
      rintro _ i w ⟨⟩ hw
      have hne : w.found ≠ st.id := hs.awaited hst hw
      exact hne
    holding := by
      intro k p status h
      obtain ⟨c, hc, h⟩ := hs.holding h
      refine ⟨c, ?_, h⟩
      rw [Table.lookup_insert, if_neg, hc]
      rintro rfl
      cases hnew.symm.trans hc
    wait := fun hw => (hs.wait hw).insert hnew rfl
    read := fun hr => by
      obtain ⟨p, hp⟩ := hs.read hr
      exact ⟨p, hp.insert hnew rfl⟩ }

/-- Nothing but the phase of the one call changes. -/
theorem Runtime.lookup_setWait (h : (s.setWait i phase).waits.lookup j = some w) :
    (j ≠ i ∧ s.waits.lookup j = some w) ∨
      (j = i ∧ ∃ w', s.waits.lookup i = some w' ∧ w = { w' with phase := phase }) := by
  exact (Table.of_lookup_update h).symm

theorem Runtime.lookup_setRead (h : (s.setRead i phase).reads.lookup j = some r) :
    (j ≠ i ∧ s.reads.lookup j = some r) ∨
      (j = i ∧ ∃ r', s.reads.lookup i = some r' ∧ r = { r' with phase := phase }) := by
  exact (Table.of_lookup_update h).symm

/-- A call in another phase than the written one is as it was. -/
theorem Runtime.waits_of_phase_ne (h : (s.setWait i phase).waits.lookup j = some w)
    (hp : w.phase ≠ phase) : s.waits.lookup j = some w := by
  rcases Runtime.lookup_setWait h with ⟨-, hx⟩ | ⟨-, w', -, rfl⟩
  · exact hx
  · exact absurd rfl hp

theorem Runtime.waits_of_setWait (h : (s.setWait i phase).waits.lookup j = some w) :
    ∃ w', s.waits.lookup j = some w' ∧ w = { w' with phase := w.phase } := by
  rcases Runtime.lookup_setWait h with ⟨-, hx⟩ | ⟨rfl, w', hx, rfl⟩
  · exact ⟨w, hx, rfl⟩
  · exact ⟨w', hx, rfl⟩

theorem Runtime.reads_of_setRead (h : (s.setRead i phase).reads.lookup j = some r) :
    ∃ r', s.reads.lookup j = some r' ∧ r = { r' with phase := r.phase } := by
  rcases Runtime.lookup_setRead h with ⟨-, hx⟩ | ⟨rfl, r', hx, rfl⟩
  · exact ⟨r, hx, rfl⟩
  · exact ⟨r', hx, rfl⟩

/-- A step that begins a start, or goes on with it. -/
theorem Runtime.Started.restart (hs : s.Started) (ht : t = { s with
      next := t.next
      files := t.files
      fifos := t.fifos
      opened := t.opened
      closed := t.closed
      starting := some st })
    (hn : s.next ≤ t.next) (hu : .fork ∈ st.rest → s.children.lookup st.id = none)
    (hf : ∀ pid, st.child = some pid →
      s.Named st.id pid (some (st.request.containerId, st.request.execId)) ∧
        ∀ status, ¬ s.Ended st.id status)
    (ha : ∀ i w, s.waits.lookup i = some w → w.found ≠ st.id) : t.Started := by
  rw [ht]
  exact {
    child_lt := fun h => (hs.child_lt h).trans_le hn
    entry := hs.entry
    unforked := by
      rintro _ ⟨⟩
      exact hu
    forked := by
      rintro _ pid ⟨⟩
      exact hf pid
    awaited := by
      rintro _ i w ⟨⟩
      exact ha i w
    holding := hs.holding
    wait := hs.wait
    read := hs.read }

theorem Runtime.Started.advance (hs : s.Started) (hst : s.starting = some st)
    (hr : st.rest = i :: rest) (slots : Table Slot RawFd) (ht : t = { s with
      next := t.next
      files := t.files
      fifos := t.fifos
      opened := t.opened
      closed := t.closed
      starting := some { st with slots := slots, rest := rest } })
    (hn : s.next ≤ t.next) : t.Started := by
  have hu : .fork ∈ rest → s.children.lookup st.id = none := fun hf =>
    hs.unforked hst (hr ▸ List.mem_cons_of_mem i hf)
  have hf : ∀ pid, st.child = some pid →
      s.Named st.id pid (some (st.request.containerId, st.request.execId)) ∧
        ∀ status, ¬ s.Ended st.id status := fun _ hp => hs.forked hst hp
  have ha : ∀ i w, s.waits.lookup i = some w → w.found ≠ st.id := fun _ _ hw => hs.awaited hst hw
  exact hs.restart ht hn hu hf ha

theorem Runtime.Started.register (hs : s.Started) (hst : s.starting = some st)
    (hp : st.child = some pid) : (s.register st pid).Started := by
  have hc := s.register_eq st pid
  have hent : ∀ {c p e}, (s.register st pid).entry c p = some e →
      s.Named e.owner p (some (c, e.execId)) := by
    intro c p e he
    rcases Runtime.entry_register he with ⟨rfl, rfl, rfl⟩ | ⟨-, he⟩
    · exact (hs.forked hst hp).1
    · exact hs.entry he
  generalize s.register st pid = t at hc hent
  rw [hc]
  rw [hc] at hent
  exact {
    child_lt := hs.child_lt
    entry := hent
    unforked := fun h => by cases h
    forked := fun h => by cases h
    awaited := fun h => by cases h
    holding := hs.holding
    wait := hs.wait
    read := hs.read }

theorem Runtime.Started.waitLookup (hs : s.Started) (he : s.entry c p = some e)
    (hst : s.starting = none) (w : WaitCall)
    (hw : w.found = e.owner ∧ w.pid = p ∧ w.containerId = c ∧ w.execId = e.execId) :
    Runtime.Started { s with waits := s.waits.insert i w } := by
  obtain ⟨h1, h2, h3, h4⟩ := hw
  exact { hs with
    awaited := fun h => by cases hst.symm.trans h
    wait := by
      intro j x hx
      rcases Table.of_lookup_insert hx with ⟨-, rfl⟩ | ⟨-, hx⟩
      · rw [h1, h2, h3, h4]
        exact hs.entry he
      · exact hs.wait hx }

theorem Runtime.Started.readPick (hs : s.Started) (he : s.entry c p = some e) (r : ReadCall)
    (hr : r.found = e.owner ∧ r.containerId = c ∧ r.execId = e.execId) :
    Runtime.Started { s with reads := s.reads.insert i r } := by
  obtain ⟨h1, h2, h3⟩ := hr
  exact { hs with
    read := by
      intro j x hx
      rcases Table.of_lookup_insert hx with ⟨-, rfl⟩ | ⟨-, hx⟩
      · rw [h1, h2, h3]
        exact ⟨p, hs.entry he⟩
      · exact hs.read hx }

/-- The child that the reaper holds is in no other phase. -/
theorem Runtime.Started.holding_ne (hs : s.Started) (hk : s.children.lookup k = some c)
    (hr : s.reaper = .holding j pid status) (hp : ∀ status, c.phase ≠ .reaped status) : j ≠ k := by
  rintro rfl
  obtain ⟨d, hd, -, hph⟩ := hs.holding hr
  cases hk.symm.trans hd
  exact hp _ hph

theorem Runtime.Started.step (hs : s.Started) (ht : s.StartTidy) (h : s.step a = some t) :
    t.Started := by
  have hid : ∀ st, s.starting = some st → s.starting = some st := fun _ h => h
  have hrp : ∀ k pid status, s.reaper = .holding k pid status →
      s.reaper = .holding k pid status := fun _ _ _ h => h
  have hen : ∀ c p e, s.entry c p = some e →
      ∃ e', s.entry c p = some e' ∧ e'.owner = e.owner ∧ e'.execId = e.execId :=
    fun _ _ e h => ⟨e, h, rfl, rfl⟩
  have hwt : ∀ i w, s.waits.lookup i = some w → ∃ w', s.waits.lookup i = some w' ∧
      w = { w' with phase := w.phase } := fun _ w h => ⟨w, h, rfl⟩
  have hrd : ∀ i r, s.reads.lookup i = some r → ∃ r', s.reads.lookup i = some r' ∧
      r = { r' with phase := r.phase } := fun _ r h => ⟨r, h, rfl⟩
  have hera : ∀ {cid} c p e,
      Runtime.entry { s with containers := s.containers.erase cid } c p = some e →
      ∃ e', s.entry c p = some e' ∧ e'.owner = e.owner ∧ e'.execId = e.execId :=
    fun _ _ e h => ⟨e, Runtime.entry_erase h, rfl, rfl⟩
  cases Runtime.step_effect h with
  | spawn hp => exact hs.spawn _ _ fun st hst => (ht st hst).1
  | exit hk hp =>
    apply hs.setPhase hk (.inl fun _ h => by cases h)
    intro k' pid status hr
    have hne := hs.holding_ne hk hr fun _ h => by cases hp.symm.trans h
    exact .inr ⟨hne, hr⟩
  | lose hk hp =>
    apply hs.setPhase hk (.inl fun _ h => by cases h)
    intro k' pid status hr
    have hne := hs.holding_ne hk hr fun _ h => by cases hp.symm.trans h
    exact .inr ⟨hne, hr⟩
  | reap hi hk hp =>
    apply hs.setPhase hk (.inl fun _ h => by cases h)
    rintro k' pid status ⟨⟩
    exact .inl ⟨rfl, rfl, rfl⟩
  | unwindReaper hr hst hp => exact hs.frame rfl le_rfl hen hid (fun _ _ _ h => by cases h) hwt hrd
  | endRound hr hst he =>
    obtain ⟨c, hk, -, -⟩ := hs.holding hr
    exact hs.setPhase hk (.inr hst) fun _ _ _ h => by cases h
  | @writeExit k pid status c e w hr hst he hw =>
    obtain ⟨x, hk, -, -⟩ := hs.holding hr
    have hx : (s.endRound k status).Started := hs.setPhase hk (.inr hst) fun _ _ _ h => by cases h
    refine hx.frame rfl le_rfl (fun c' p e' he' => ?_) hid (fun _ _ _ h => h) hwt hrd
    apply Runtime.entry_of_setEntry he he' ⟨rfl, rfl⟩
    exact fun _ => ⟨rfl, rfl⟩
  | begin hl =>
    apply hs.restart rfl (Nat.le_succ _)
    · exact fun _ => hs.next_unused
    · exact fun _ h => by cases h
    · intro i w hw
      obtain ⟨c, hc, -⟩ := hs.wait hw
      exact (hs.child_lt hc).ne
  | openAt hst hr hn => exact hs.advance hst hr _ rfl le_rfl
  | closeAt hst hr hfd => exact hs.advance hst hr _ rfl le_rfl
  | getContainer hst hr hm => exact hs.advance hst hr _ rfl le_rfl
  | makeFifo hst hr hm => exact hs.advance hst hr _ rfl le_rfl
  | fork hst hr hp => exact hs.fork ht hst hr
  | register hst hr hp => exact hs.register hst hp
  | abandon hst => exact hs.frame rfl le_rfl hen (fun _ h => by cases h) hrp hwt hrd
  | waitLookup hf hi =>
    obtain ⟨hl, he, rfl⟩ := Runtime.found_eq_some.1 hf
    exact hs.waitLookup he hl.1 _ ⟨rfl, rfl, rfl, rfl⟩
  | waitRead hw hp hr hb =>
    exact hs.frame rfl le_rfl hen hid hrp (fun _ _ => Runtime.waits_of_setWait) hrd
  | waitPanic hw hp hst hn =>
    exact hs.frame rfl le_rfl hen hid hrp (fun _ _ => Runtime.waits_of_setWait) hrd
  | waitReturn hw hp hst hn he =>
    refine hs.frame rfl le_rfl (fun c p e h => ?_) hid hrp (fun _ _ => Runtime.waits_of_setWait) hrd
    exact ⟨e, (Runtime.entry_removeEntry h).2, rfl, rfl⟩
  | readPick hf hfd hi =>
    obtain ⟨-, he, rfl⟩ := Runtime.found_eq_some.1 hf
    exact hs.readPick he _ ⟨rfl, rfl, rfl⟩
  | readReturn hr hp hf =>
    exact hs.frame rfl le_rfl hen hid hrp hwt fun _ _ => Runtime.reads_of_setRead
  | readFail hr hp =>
    exact hs.frame rfl le_rfl hen hid hrp hwt fun _ _ => Runtime.reads_of_setRead
  | closeStdin hf =>
    obtain ⟨-, he, -⟩ := Runtime.found_eq_some.1 hf
    refine hs.frame rfl le_rfl (fun c p e h => ?_) hid hrp hwt hrd
    apply Runtime.entry_of_setEntry he h ⟨rfl, rfl⟩
    exact fun _ => ⟨rfl, rfl⟩
  | removeFail => exact hs
  | removeContainer hl => exact hs.frame rfl le_rfl hera hid hrp hwt hrd
  | removeDestroyed hl hr => exact hs.frame rfl le_rfl hera hid hrp hwt hrd
  | _ => exact hs.frame rfl le_rfl hen hid hrp hwt hrd

theorem Runtime.Started.boot (h : processRuntime.init s) : s.Started := by
  obtain ⟨files, -, rfl⟩ := h
  exact {
    child_lt := fun h => by cases h
    entry := fun h => by cases h
    unforked := fun h => by cases h
    forked := fun h => by cases h
    awaited := fun h => by cases h
    holding := fun h => by cases h
    wait := fun h => by cases h
    read := fun h => by cases h }

/-- In every state the agent remembers the children that it has. -/
theorem Runtime.Started.of_reachable (h : processRuntime.Reachable s) : s.Started := by
  have hs : s.StartTidy ∧ s.Started := by
    apply h.invariant
    · intro s h0
      have hnone : s.starting = none := by
        obtain ⟨files, -, rfl⟩ := h0
        rfl
      exact ⟨fun st hst => (by cases hnone.symm.trans hst), .boot h0⟩
    · intro s a t hs _ hst
      exact ⟨hs.1.step hst, hs.2.step hs.1 hst⟩
  exact hs.2

end KataAgent
