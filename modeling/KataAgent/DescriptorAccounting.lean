import KataAgent.ExitReaping

namespace KataAgent
open Transition
set_option autoImplicit true

variable {s t u : Runtime} {e : ProcessRecord}

theorem ProcessRecord.not_ofHook {fd : RawFd} (h : e.fd slot = some fd) : slot.ofHook = false := by
  cases slot <;> first | rfl | cases h

theorem Slot.not_ofHook {slot : Slot} (h : slot.left = false) : slot.ofHook = false := by
  cases slot <;> first | rfl | cases h

/-- What a step does to the open descriptors. -/
inductive Runtime.FileEffect (s t : Runtime) : RuntimeAction → Prop where
  | keep (hf : t.files = s.files) (ho : t.opened = s.opened) (hc : t.closed = s.closed) :
      FileEffect s t a
  | closes {fds : List (Slot × RawFd)} (hf : t.files = (s.closeAll k fds).files)
      (ho : t.opened = s.opened) (hc : t.closed = (s.closeAll k fds).closed)
      (hown : ∀ {slot fd}, (slot, fd) ∈ fds →
        s.files.lookup fd = some (.start k slot) ∧ slot.ofHook = false) : FileEffect s t a
  | opens (hn : n ∉ s.files) (hf : t.files = s.files.insert n (.start k slot))
      (ho : t.opened = s.opened ++ [(k, slot)]) (hc : t.closed = s.closed)
      (hnew : (k, slot) ∉ s.opened) : FileEffect s t a
  | opensOther (hn : n ∉ s.files) (hf : t.files = s.files.insert n .other)
      (ho : t.opened = s.opened) (hc : t.closed = s.closed) : FileEffect s t (.openOther n)
  | closesOther (hx : s.files.lookup n = some .other) (hf : t.files = s.files.erase n)
      (ho : t.opened = s.opened) (hc : t.closed = s.closed) : FileEffect s t (.closeOther n)

theorem Runtime.EntryHeld.own_fds (hy : s.EntryHeld e) {slots : List Slot} {fd : RawFd}
    (hs : Slot.exitPipeW ∉ slots) (hm : (slot, fd) ∈ e.fds slots) :
    s.files.lookup fd = some (.start e.owner slot) ∧ slot.ofHook = false := by
  obtain ⟨hfd, ho⟩ := hy.fds_open hs hm
  exact ⟨hy.fd_file hfd ho, ProcessRecord.not_ofHook hfd⟩

theorem Runtime.Sound.file_effect (hS : s.Sound) (hd : s.DistinctPids) (h : s.step a = some t) :
    s.FileEffect t a := by
  cases Runtime.step_effect h with
  | @writeExit k pid status c e w hr hst he hw =>
    have hown : ∀ slot fd, (slot, fd) ∈ [(Slot.exitPipeW, w)] →
        s.files.lookup fd = some (.start e.owner slot) ∧ slot.ofHook = false := by
      intro slot fd hm
      cases List.mem_singleton.1 hm
      have hc := hS.tracked.closesOnce hS.started hd (.record c) pid (by rw [hr]; rfl) e he
      exact ⟨(hS.held.entry he).fd_file hw hc, rfl⟩
    exact .closes rfl rfl rfl (hown _ _)
  | @openAt st slot rest n hst hr hn =>
    exact .opens hn rfl rfl rfl ((hS.held.start hst).unopened (hr ▸ List.mem_cons_self))
  | @closeAt st rest slot fd n hst hr hfd =>
    have hh := hS.held.start hst
    have hown : ∀ slot' fd', (slot', fd') ∈ [(slot, fd)] →
        s.files.lookup fd' = some (.start st.id slot') ∧ slot'.ofHook = false := by
      intro slot' fd' hm
      cases List.mem_singleton.1 hm
      exact ⟨hh.slot_file hfd, Slot.not_ofHook (hh.tidy.leaves (hr ▸ List.mem_cons_self))⟩
    exact .closes rfl rfl rfl (hown _ _)
  | register hst hr hp =>
    exact .keep Runtime.register_files Runtime.register_opened Runtime.register_closed
  | waitReturn hw hp hst hn he =>
    exact .closes rfl rfl rfl ((hS.held.entry he).own_fds (by decide))
  | closeStdin hf =>
    obtain ⟨-, he, -⟩ := Runtime.found_eq_some.1 hf
    exact .closes rfl rfl rfl ((hS.held.entry he).own_fds (by decide))
  | openOther hn => exact .opensOther hn rfl rfl rfl
  | closeOther hf => exact .closesOther hf rfl rfl rfl
  | _ => exact .keep rfl rfl rfl

/-- What was opened stays open until it is closed, and the pipes of hooks are not closed. -/
structure Runtime.OpenOrClosed (s : Runtime) : Prop where
  still_open : ∀ {k slot}, (k, slot) ∈ s.opened → (k, slot) ∉ s.closed →
    ∃ fd, s.files.lookup fd = some (.start k slot)
  hooks_open : ∀ {k slot}, (k, slot) ∈ s.closed → slot.ofHook = false

theorem Runtime.OpenOrClosed.step (hs : s.OpenOrClosed) (h : s.FileEffect t a) :
    t.OpenOrClosed := by
  cases h with
  | keep hf ho hc =>
    exact ⟨fun h h' => hf ▸ hs.still_open (ho ▸ h) (hc ▸ h'), fun h => hs.hooks_open (hc ▸ h)⟩
  | closes hf ho hc hown =>
    constructor
    · intro k slot h h'
      rw [hc] at h'
      obtain ⟨fd, hfd⟩ := hs.still_open (ho ▸ h) fun hx => h' (List.mem_append_left _ hx)
      refine ⟨fd, ?_⟩
      rw [hf]
      apply Runtime.lookup_closeAll_start (fun _ _ hm => (hown hm).1) hfd
      rintro rfl hm
      exact h' (Runtime.mem_closed_closeAll.2 (.inr ⟨rfl, fd, hm⟩))
    · intro k slot h
      rw [hc] at h
      rcases Runtime.mem_closed_closeAll.1 h with h | ⟨-, fd, hm⟩
      · exact hs.hooks_open h
      · exact (hown hm).2
  | opens hn hf ho hc hnew =>
    refine ⟨fun {k slot} h h' => ?_, fun h => hs.hooks_open (hc ▸ h)⟩
    rw [ho] at h
    rcases List.mem_append.1 h with h | h
    · obtain ⟨fd, hfd⟩ := hs.still_open h (hc ▸ h')
      exact ⟨fd, by rw [hf, Table.lookup_insert, if_neg (Runtime.lookup_ne_of_notMem hn hfd), hfd]⟩
    · cases List.mem_singleton.1 h
      exact ⟨_, by rw [hf, Table.lookup_insert, if_pos rfl]⟩
  | opensOther hn hf ho hc =>
    refine ⟨fun {k slot} h h' => ?_, fun h => hs.hooks_open (hc ▸ h)⟩
    obtain ⟨fd, hfd⟩ := hs.still_open (ho ▸ h) (hc ▸ h')
    exact ⟨fd, by rw [hf, Table.lookup_insert, if_neg (Runtime.lookup_ne_of_notMem hn hfd), hfd]⟩
  | @closesOther n hx hf ho hc =>
    refine ⟨fun {k slot} h h' => ?_, fun h => hs.hooks_open (hc ▸ h)⟩
    obtain ⟨fd, hfd⟩ := hs.still_open (ho ▸ h) (hc ▸ h')
    have hne : fd ≠ n := by
      rintro rfl
      cases hx.symm.trans hfd
    exact ⟨fd, by rw [hf, Table.lookup_erase, if_neg hne, hfd]⟩

def Runtime.StartedFor (s : Runtime) (k : Nat) (req : StartRequest) : Prop :=
  ∃ c, s.children.lookup k = some c ∧ c.startedFor = some req

/-- The start has opened what its program opens. -/
def Runtime.OpenedAll (s : Runtime) (k : Nat) (req : StartRequest) : Prop :=
  ∀ slot, (k, slot) ∈ s.opened ↔ .openAt slot ∈ req.program

/-- The descriptors that a process had are those of its program, and `WaitProcess` closes them up
to the pipes of hooks. -/
structure Runtime.Accounted (s : Runtime) : Prop where
  starting : ∀ {st}, s.starting = some st → ∀ slot, .openAt slot ∈ st.request.program ↔
    .openAt slot ∈ st.rest ∨ (st.id, slot) ∈ s.opened
  forked : ∀ {st pid}, s.starting = some st → st.child = some pid → s.StartedFor st.id st.request
  entry : ∀ {c p e}, s.entry c p = some e → ∃ req, s.StartedFor e.owner req ∧
    s.OpenedAll e.owner req
  returned : ∀ {i w code}, s.waits.lookup i = some w → w.phase = .returned code →
    ∃ req, s.StartedFor w.found req ∧ s.OpenedAll w.found req ∧
      ∀ slot, (w.found, slot) ∈ s.opened → slot.ofHook ∨ (w.found, slot) ∈ s.closed

theorem Runtime.Accounted.frame (hs : s.Accounted)
    (hch : ∀ k req, s.StartedFor k req → t.StartedFor k req)
    (ho : t.opened = s.opened) (hcl : ∀ x ∈ s.closed, x ∈ t.closed)
    (hst : ∀ st', t.starting = some st' → ∃ st, s.starting = some st ∧ st'.id = st.id ∧
      st'.request = st.request ∧ (∀ slot, .openAt slot ∈ st'.rest ↔ .openAt slot ∈ st.rest) ∧
        (st'.child = st.child ∨ t.StartedFor st.id st.request))
    (he : ∀ c p e, t.entry c p = some e → ∃ e', s.entry c p = some e' ∧ e'.owner = e.owner)
    (hw : ∀ i w code, t.waits.lookup i = some w → w.phase = .returned code →
      s.waits.lookup i = some w ∨ ∃ c p e, s.entry c p = some e ∧ e.owner = w.found ∧
        ∀ slot, (e.owner, slot) ∈ s.opened → slot.ofHook ∨ (e.owner, slot) ∈ t.closed) :
    t.Accounted where
  starting := by
    intro st' h slot
    obtain ⟨st, hst, hid, hr, hrest, -⟩ := hst st' h
    rw [hr, hid, hrest, ho]
    exact hs.starting hst slot
  forked := by
    intro st' pid h hp
    obtain ⟨st, hst, hid, hr, -, hc | hc⟩ := hst st' h
    · rw [hid, hr]
      exact hch _ _ (hs.forked hst (hc ▸ hp))
    · rw [hid, hr]
      exact hc
  entry := by
    intro c p e h
    obtain ⟨e', h', hown⟩ := he c p e h
    obtain ⟨req, hreq, hall⟩ := hs.entry h'
    rw [← hown]
    exact ⟨req, hch _ _ hreq, fun slot => ho ▸ hall slot⟩
  returned := by
    intro i w code h hp
    rcases hw i w code h hp with h | ⟨c, p, e, h, hown, hslots⟩
    · obtain ⟨req, hreq, hall, hsl⟩ := hs.returned h hp
      exact ⟨req, hch _ _ hreq, fun slot => ho ▸ hall slot, fun slot hx =>
        (hsl slot (ho ▸ hx)).imp_right (hcl _)⟩
    · obtain ⟨req, hreq, hall⟩ := hs.entry h
      rw [← hown]
      exact ⟨req, hch _ _ hreq, fun slot => ho ▸ hall slot, fun slot hx => hslots slot (ho ▸ hx)⟩

theorem Runtime.StartedFor.setPhase (h : s.StartedFor x req) (k : Nat) (phase : ChildPhase) :
    (s.setPhase k phase).StartedFor x req := by
  obtain ⟨c, hc, hr⟩ := h
  unfold Runtime.StartedFor Runtime.setPhase
  dsimp only
  rw [Table.lookup_update]
  split
  · rename_i hx
    rw [← hx, hc]
    exact ⟨_, rfl, hr⟩
  · exact ⟨c, hc, hr⟩

theorem Runtime.StartedFor.insert (h : s.StartedFor x req) (hk : s.children.lookup k = none)
    (ht : t.children = s.children.insert k c) : t.StartedFor x req := by
  obtain ⟨d, hd, hr⟩ := h
  have hne : x ≠ k := by
    rintro rfl
    cases hk.symm.trans hd
  exact ⟨d, by rw [ht, Table.lookup_insert, if_neg hne, hd], hr⟩

theorem Runtime.Accounted.openAt (hs : s.Accounted) (hh : s.Held) (hst' : s.Started)
    (hst : s.starting = some st) (hr : st.rest = .openAt slot :: rest) :
    Runtime.Accounted { s with
      files := s.files.insert n (.start st.id slot)
      opened := s.opened ++ [(st.id, slot)]
      starting := some { st with rest := rest, slots := st.slots.insert slot n } } := by
  have hmem : ∀ {k slot'}, k ≠ st.id →
      ((k, slot') ∈ s.opened ++ [(st.id, slot)] ↔ (k, slot') ∈ s.opened) := by
    intro k slot' hne
    rw [List.mem_append, List.mem_singleton]
    exact ⟨fun h => h.resolve_right fun h => hne (congrArg Prod.fst h), .inl⟩
  exact {
    starting := by
      rintro _ ⟨⟩ slot'
      have h := hs.starting hst slot'
      rw [hr] at h
      simp only [List.mem_cons, StartInstr.openAt.injEq, List.mem_append, List.not_mem_nil,
        or_false, Prod.mk.injEq, true_and] at h ⊢
      tauto
    forked := by
      rintro _ pid ⟨⟩ hp
      have hfor : s.StartedFor st.id st.request := hs.forked hst hp
      exact hfor
    entry := by
      intro c p e he
      obtain ⟨req, hreq, hall⟩ := hs.entry he
      exact ⟨req, hreq, fun slot' => (hmem ((hh.start hst).fresh he)).trans (hall slot')⟩
    returned := by
      intro i w code hw hp
      obtain ⟨req, hreq, hall, hsl⟩ := hs.returned hw hp
      have hne := hst'.awaited hst hw
      exact ⟨req, hreq, fun slot' => (hmem hne).trans (hall slot'), fun slot' ho =>
        hsl slot' ((hmem hne).1 ho)⟩ }

theorem Runtime.Accounted.register (hs : s.Accounted) (hst : s.starting = some st)
    (hr : st.rest = []) (hp : st.child = some pid) : (s.register st pid).Accounted := by
  have ho : (s.register st pid).opened = s.opened := Runtime.register_opened
  have hcl : (s.register st pid).closed = s.closed := Runtime.register_closed
  have hw : (s.register st pid).waits = s.waits := Runtime.register_waits
  have hno : (s.register st pid).starting = none := Runtime.register_starting
  have hfor : ∀ {k req}, s.StartedFor k req → (s.register st pid).StartedFor k req := by
    intro k req h
    rw [Runtime.StartedFor]
    rw [Runtime.register_children]
    exact h
  exact {
    starting := fun h => by cases hno.symm.trans h
    forked := fun h => by cases hno.symm.trans h
    entry := by
      intro c p e he
      rcases Runtime.entry_register he with ⟨-, -, rfl⟩ | ⟨-, he⟩
      · refine ⟨st.request, hfor (hs.forked hst hp), fun slot => ?_⟩
        have h := hs.starting hst slot
        rw [hr] at h
        rw [ho, h]
        exact ⟨.inr, fun h => h.resolve_left nofun⟩
      · obtain ⟨req, hreq, hall⟩ := hs.entry he
        exact ⟨req, hfor hreq, fun slot => ho ▸ hall slot⟩
    returned := by
      intro i w code h hph
      obtain ⟨req, hreq, hall, hsl⟩ := hs.returned (hw ▸ h) hph
      exact ⟨req, hfor hreq, fun slot => ho ▸ hall slot, fun slot hx => hcl ▸ hsl slot (ho ▸ hx)⟩ }

/-- The call that returns has closed what the reaper, and `CloseStdin`, left open. -/
theorem Runtime.Sound.wait_closes (hS : s.Sound) (he : s.entry c p = some e)
    (hp : (e.owner, .exitPipeW) ∈ s.closed) (h : (e.owner, slot) ∈ s.opened) :
    slot.ofHook ∨ (e.owner, slot) ∈ (s.closeAll e.owner (e.fds waitSlots)).closed := by
  rcases (hS.held.entry he).accounted h with hc | hk | hf
  · exact .inr (List.mem_append_left _ hc)
  · exact .inl hk
  · obtain ⟨fd, hfd⟩ := Option.ne_none_iff_exists'.1 hf
    by_cases hsl : slot ∈ waitSlots
    · exact .inr (List.mem_append_right _ (List.mem_map.2 ⟨(slot, fd),
        ProcessRecord.mem_fds.2 ⟨hsl, hfd⟩, rfl⟩))
    · cases slot <;> first
        | exact .inr (List.mem_append_left _ hp)
        | exact absurd (by decide) hsl
        | cases hfd

theorem Runtime.Accounted.step (hs : s.Accounted) (hS : s.Sound) (hd : s.DistinctPids)
    (h : s.step a = some t) : t.Accounted := by
  have hch : ∀ k req, s.StartedFor k req → s.StartedFor k req := fun _ _ h => h
  have hcl : ∀ x ∈ s.closed, x ∈ s.closed := fun _ h => h
  have hid : ∀ st', s.starting = some st' → ∃ st, s.starting = some st ∧ st'.id = st.id ∧
      st'.request = st.request ∧ (∀ slot, .openAt slot ∈ st'.rest ↔ .openAt slot ∈ st.rest) ∧
        (st'.child = st.child ∨ s.StartedFor st.id st.request) :=
    fun st h => ⟨st, h, rfl, rfl, fun _ => .rfl, .inl rfl⟩
  have hen : ∀ c p e, s.entry c p = some e → ∃ e', s.entry c p = some e' ∧ e'.owner = e.owner :=
    fun _ _ e h => ⟨e, h, rfl⟩
  have hera : ∀ {cid} c p e,
      Runtime.entry { s with containers := s.containers.erase cid } c p = some e →
      ∃ e', s.entry c p = some e' ∧ e'.owner = e.owner :=
    fun _ _ e h => ⟨e, Runtime.entry_erase h, rfl⟩
  have hwt : ∀ {closed : List (Nat × Slot)} i w code, s.waits.lookup i = some w →
      w.phase = .returned code → s.waits.lookup i = some w ∨ ∃ c p e, s.entry c p = some e ∧
        e.owner = w.found ∧ ∀ slot, (e.owner, slot) ∈ s.opened →
          slot.ofHook ∨ (e.owner, slot) ∈ closed := fun _ _ _ h _ => .inl h
  have hset : ∀ {phase} (closed : List (Nat × Slot)) {i} j w code,
      (s.setWait i phase).waits.lookup j = some w → w.phase = .returned code →
      (∀ code, phase ≠ .returned code) → s.waits.lookup j = some w ∨ ∃ c p e, s.entry c p = some e ∧
        e.owner = w.found ∧ ∀ slot, (e.owner, slot) ∈ s.opened →
          slot.ofHook ∨ (e.owner, slot) ∈ closed := by
    intro phase closed i j w code hw hp hph
    exact .inl (Runtime.waits_of_phase_ne hw fun h => hph code (h.symm.trans hp))
  have hadv : ∀ {st i rest}, s.starting = some st → st.rest = i :: rest →
      (∀ slot, i ≠ .openAt slot) → ∀ st' slots,
        some { st with slots := slots, rest := rest } = some st' →
        ∃ st, s.starting = some st ∧ st'.id = st.id ∧ st'.request = st.request ∧
          (∀ slot, .openAt slot ∈ st'.rest ↔ .openAt slot ∈ st.rest) ∧
            (st'.child = st.child ∨ s.StartedFor st.id st.request) := by
    rintro st i rest hst hr hi _ slots ⟨⟩
    refine ⟨st, hst, rfl, rfl, fun slot => ?_, .inl rfl⟩
    rw [hr, List.mem_cons]
    exact ⟨.inr, fun h => h.resolve_left fun hx => hi slot hx.symm⟩
  cases Runtime.step_effect h with
  | spawn hn =>
    have hnew := hS.started.next_unused
    exact hs.frame (fun _ _ h => h.insert hnew rfl) rfl hcl
      (fun st h => ⟨st, h, rfl, rfl, fun _ => .rfl, .inl rfl⟩) hen hwt
  | exit hk hp =>
    exact hs.frame (fun _ _ h => h.setPhase _ _) rfl hcl
      (fun st h => ⟨st, h, rfl, rfl, fun _ => .rfl, .inl rfl⟩) hen hwt
  | reap hi hk hp =>
    exact hs.frame (fun _ _ h => h.setPhase _ _) rfl hcl
      (fun st h => ⟨st, h, rfl, rfl, fun _ => .rfl, .inl rfl⟩) hen hwt
  | lose hk hp =>
    exact hs.frame (fun _ _ h => h.setPhase _ _) rfl hcl
      (fun st h => ⟨st, h, rfl, rfl, fun _ => .rfl, .inl rfl⟩) hen hwt
  | endRound hr hst hf =>
    exact hs.frame (fun _ _ h => h.setPhase _ _) rfl hcl
      (fun st h => ⟨st, h, rfl, rfl, fun _ => .rfl, .inl rfl⟩) hen hwt
  | @writeExit k pid status c e w hr hst he hw =>
    refine hs.frame (fun _ _ h => h.setPhase _ _) rfl
      (fun _ h => List.mem_append_left _ h) (fun _ h => by cases hst.symm.trans h)
      (fun c' p a ha => ?_) hwt
    exact Runtime.entry_of_setEntry_owner he ha rfl
  | begin hl => exact {
      starting := by
        rintro _ ⟨⟩ slot
        exact ⟨.inl, fun h => h.resolve_right fun hx =>
          absurd (hS.held.opened_lt hx) (Nat.lt_irrefl _)⟩
      forked := by
        rintro _ pid ⟨⟩ hp
        cases hp
      entry := hs.entry
      returned := hs.returned }
  | openAt hst hr hn => exact hs.openAt hS.held hS.started hst hr
  | closeAt hst hr hfd =>
    exact hs.frame hch rfl (fun _ h => List.mem_append_left _ h)
      (fun st' h => hadv hst hr nofun st' _ h) hen hwt
  | getContainer hst hr hm =>
    exact hs.frame hch rfl hcl (fun st' h => hadv hst hr nofun st' _ h) hen hwt
  | makeFifo hst hr hm =>
    exact hs.frame hch rfl hcl (fun st' h => hadv hst hr nofun st' _ h) hen hwt
  | @fork st rest pid hst hr hn =>
    have hnew := hS.started.unforked hst (hr ▸ List.mem_cons_self)
    refine hs.frame (fun _ _ h => h.insert hnew rfl) rfl hcl ?_ hen hwt
    rintro _ ⟨⟩
    refine ⟨st, hst, rfl, rfl, fun slot => ?_, .inr ?_⟩
    · rw [hr, List.mem_cons]
      exact ⟨.inr, fun h => h.resolve_left nofun⟩
    · exact ⟨_, by rw [Table.lookup_insert, if_pos rfl], rfl⟩
  | register hst hr hp => exact hs.register hst hr hp
  | abandon hst => exact hs.frame hch rfl hcl (fun _ h => by cases h) hen hwt
  | waitLookup hf hi =>
    refine hs.frame hch rfl hcl hid hen fun j w code hw hp => ?_
    rcases Table.of_lookup_insert hw with ⟨-, rfl⟩ | ⟨-, hw⟩
    · rw [if_neg (hS.held.entry (Runtime.found_eq_some.1 hf).2.1).exitR] at hp
      cases hp
    · exact .inl hw
  | waitRead hw hp hr hb =>
    exact hs.frame hch rfl hcl hid hen fun j w code h hp => hset _ j w code h hp nofun
  | waitPanic hw hp hst hn =>
    exact hs.frame hch rfl hcl hid hen fun j w code h hp => hset _ j w code h hp nofun
  | @waitReturn i w e hw hp hst hn he =>
    have ho : e.owner = w.found := hd.found_eq hS.started hw (by rw [hp]; trivial) he
    have hpass := hS.tracked.passed hw hp he ho
    refine hs.frame hch rfl (fun _ h => List.mem_append_left _ h) hid
      (fun c p a ha => ⟨a, (Runtime.entry_removeEntry ha).2, rfl⟩) fun j x code hj hph => ?_
    rcases Runtime.lookup_setWait hj with ⟨-, hy⟩ | ⟨-, x', hy, rfl⟩
    · exact .inl hy
    · cases hw.symm.trans hy
      exact .inr ⟨_, _, e, he, ho, fun slot hx => hS.wait_closes he (ho ▸ hpass) hx⟩
  | @closeStdin c eid p e hf =>
    obtain ⟨-, he, -⟩ := Runtime.found_eq_some.1 hf
    refine hs.frame hch rfl (fun _ h => List.mem_append_left _ h) hid
      (fun c' p' a ha => ?_) hwt
    exact Runtime.entry_of_setEntry_owner he ha rfl
  | removeFail => exact hs
  | removeContainer hl => exact hs.frame hch rfl hcl hid hera hwt
  | removeDestroyed hl hr => exact hs.frame hch rfl hcl hid hera hwt
  | _ => exact hs.frame hch rfl hcl hid hen hwt

theorem Runtime.accounted_of_spared (h : processRuntime.Reach Runtime.PidsSpared s) :
    s.OpenOrClosed ∧ s.Accounted := by
  have hinv : s.Sound ∧ s.DistinctPids ∧ s.OpenOrClosed ∧ s.Accounted := by
    apply h.invariant (I := fun s => s.Sound ∧ s.DistinctPids ∧ s.OpenOrClosed ∧ s.Accounted)
    · intro s hi
      refine ⟨.boot hi, .boot hi, ?_⟩
      obtain ⟨files, -, rfl⟩ := hi
      exact ⟨⟨nofun, nofun⟩, nofun, nofun, nofun, nofun⟩
    · rintro s a t ⟨hS, hd, ho, hs⟩ hp hst
      exact ⟨hS.step hd hst, hd.step hS.started hp hst, ho.step (hS.file_effect hd hst),
        hs.step hS hd hst⟩
  exact hinv.2.2

/-- Between the two states every change to the open descriptors is one that a start's descriptor
accounts for. -/
structure Runtime.Since (s t : Runtime) : Prop where
  opened : ∀ x ∈ s.opened, x ∈ t.opened
  lost : ∀ fd file, s.files.lookup fd = some file → t.files.lookup fd = some file ∨
    ∃ k slot, file = .start k slot ∧ (k, slot) ∈ t.closed
  gained : ∀ fd file, t.files.lookup fd = some file → s.files.lookup fd = some file ∨
    ∃ k slot, file = .start k slot ∧ (k, slot) ∈ t.opened ∧ (k, slot) ∉ s.opened
  closed : ∀ x ∈ s.closed, x ∈ t.closed

theorem Runtime.Since.refl (s : Runtime) : s.Since s :=
  ⟨fun _ h => h, fun _ _ h => .inl h, fun _ _ h => .inl h, fun _ h => h⟩

theorem Runtime.Since.trans (h : s.Since t) (h' : t.Since u) : s.Since u where
  opened x hx := h'.opened x (h.opened x hx)
  closed x hx := h'.closed x (h.closed x hx)
  lost := by
    intro fd file hf
    rcases h.lost fd file hf with hf | ⟨k, slot, rfl, hc⟩
    · exact h'.lost fd file hf
    · exact .inr ⟨k, slot, rfl, h'.closed _ hc⟩
  gained := by
    intro fd file hf
    rcases h'.gained fd file hf with hf | ⟨k, slot, rfl, ho, hn⟩
    · rcases h.gained fd file hf with hf | ⟨k, slot, rfl, ho, hn⟩
      · exact .inl hf
      · exact .inr ⟨k, slot, rfl, h'.opened _ ho, hn⟩
    · exact .inr ⟨k, slot, rfl, ho, fun hx => hn (h.opened _ hx)⟩

/-- The rest of the agent opens or closes a descriptor. -/
def RuntimeAction.ofOthers : RuntimeAction → Bool
  | .openOther _ => true
  | .closeOther _ => true
  | _ => false

theorem Runtime.FileEffect.since (h : s.FileEffect t a) (ha : a.ofOthers = false) : s.Since t := by
  cases h with
  | keep hf ho hc =>
    exact ⟨fun _ h => ho ▸ h, fun _ _ h => .inl (hf ▸ h), fun _ _ h => .inl (hf ▸ h),
      fun _ h => hc ▸ h⟩
  | closes hf ho hc hown =>
    refine ⟨fun _ h => ho ▸ h, fun fd file h => ?_, fun fd file h => ?_, fun x h => ?_⟩
    · rw [hf, Runtime.lookup_closeAll]
      split
      · rename_i hm
        obtain ⟨⟨slot, fd'⟩, hq, rfl⟩ := List.mem_map.1 hm
        right
        refine ⟨_, slot, Option.some.inj (h.symm.trans (hown hq).1), ?_⟩
        rw [hc]
        exact List.mem_append_right _ (List.mem_map.2 ⟨(slot, fd'), hq, rfl⟩)
      · exact .inl h
    · exact .inl (Runtime.lookup_closeAll_some (hf ▸ h)).2
    · rw [hc]
      exact List.mem_append_left _ h
  | opens hn hf ho hc hnew =>
    refine ⟨fun x h => ho ▸ List.mem_append_left _ h, fun fd file h => ?_, fun fd file h => ?_,
      fun _ h => hc ▸ h⟩
    · left
      rw [hf, Table.lookup_insert, if_neg (Runtime.lookup_ne_of_notMem hn h), h]
    · rw [hf] at h
      rcases Table.of_lookup_insert h with ⟨-, rfl⟩ | ⟨-, h⟩
      · exact .inr ⟨_, _, rfl, ho ▸ List.mem_append_right _ List.mem_cons_self, hnew⟩
      · exact .inl h
  | opensOther => cases ha
  | closesOther => cases ha

theorem Runtime.since_of_run {l : List RuntimeAction}
    (h : processRuntime.Reach Runtime.PidsSpared s)
    (ha : processRuntime.Admits Runtime.PidsSpared s l) (hr : processRuntime.run s l = some t)
    (hl : ∀ a ∈ l, a.ofOthers = false) : s.Since t := by
  induction l generalizing s with
  | nil =>
    cases hr
    exact .refl _
  | cons a l ih =>
    obtain ⟨u, hu, hr⟩ := Option.bind_eq_some_iff.1 hr
    obtain ⟨hS, hd⟩ := Runtime.sound_of_spared h
    have hsu := (hS.file_effect hd hu).since (hl a List.mem_cons_self)
    have hut := ih (.step h ha.1 hu) (ha.2 u hu) hr fun b hb => hl b (List.mem_cons_of_mem a hb)
    exact hsu.trans hut

/-- The start runs no hooks. -/
def StartRequest.hookless (req : StartRequest) : Prop := req.init = false ∨ req.hooks = 0

instance : DecidablePred StartRequest.hookless := fun _ => inferInstanceAs (Decidable (_ ∨ _))

theorem StartRequest.hookless_iff (req : StartRequest) :
    req.hookless ↔ ∀ slot, .openAt slot ∈ req.program → slot.ofHook = false := by
  rw [StartRequest.hookless]
  constructor
  · intro h slot
    have hno : ¬ (req.init = true ∧ 0 < req.hooks) := by
      rintro ⟨hi, hk⟩
      rcases h with h | h
      · cases hi.symm.trans h
      · exact absurd hk (h ▸ Nat.lt_irrefl 0)
    cases slot with
    | hookRfd i =>
      simp [StartRequest.program, processNew, startParent, executeHook, mem_onlyIf]
      exact fun hi hk => absurd ⟨hi, Nat.zero_lt_of_lt hk⟩ hno
    | hookWfd i =>
      simp [StartRequest.program, processNew, startParent, executeHook, mem_onlyIf]
      exact fun hi hk => absurd ⟨hi, Nat.zero_lt_of_lt hk⟩ hno
    | _ => exact fun _ => rfl
  · intro h
    by_contra hn
    rw [not_or, Bool.not_eq_false] at hn
    have hm : .openAt (.hookRfd 0) ∈ req.program := by
      simp [StartRequest.program, processNew, startParent, executeHook, mem_onlyIf, hn.1]
      omega
    cases h _ hm

/-- Every descriptor that the start opened was closed, and once. -/
def Runtime.AllClosed (s : Runtime) (k : Nat) : Prop :=
  ∀ slot, (k, slot) ∈ s.opened → s.closed.count (k, slot) = 1

/-- In the run from `s` to `t` only descriptors of `k` are opened and closed. -/
structure Runtime.Alone (s t : Runtime) (l : List RuntimeAction) (k : Nat) : Prop where
  others : ∀ a ∈ l, a.ofOthers = false
  opened : ∀ x ∈ t.opened, x ∈ s.opened ∨ x.1 = k
  closed : ∀ x ∈ t.closed, x ∈ s.closed ∨ x.1 = k

/-- The life of the process `k`, from a state before its start to one after its `WaitProcess`. -/
structure Runtime.Life (s t : Runtime) (l : List RuntimeAction) (k : Nat) : Prop where
  run : processRuntime.run s l = some t
  spared : processRuntime.Admits Runtime.PidsSpared s l
  new : s.next ≤ k
  waited : ∃ i w code, t.waits.lookup i = some w ∧ w.found = k ∧ w.phase = .returned code

/-- A process leaves no descriptor behind exactly if its start ran no hooks. -/
theorem Runtime.life_closes {l : List RuntimeAction}
    (h : processRuntime.Reach Runtime.PidsSpared s) (hl : s.Life t l k) :
    ∃ req, t.StartedFor k req ∧ (t.AllClosed k ↔ req.hookless) ∧
      (s.Alone t l k → (t.files.keys = s.files.keys ↔ req.hookless)) := by
  have ht : processRuntime.Reach Runtime.PidsSpared t := h.extend hl.spared hl.run
  obtain ⟨hS, hd⟩ := Runtime.sound_of_spared ht
  obtain ⟨hoc, hacc⟩ := Runtime.accounted_of_spared ht
  obtain ⟨i, w, code, hw, rfl, hp⟩ := hl.waited
  obtain ⟨req, hreq, hall, hsl⟩ := hacc.returned hw hp
  have hclosed : t.AllClosed w.found ↔ req.hookless := by
    rw [StartRequest.hookless_iff]
    constructor
    · intro hc slot hm
      have hpos : 0 < t.closed.count (w.found, slot) := by
        rw [hc slot ((hall slot).2 hm)]
        exact Nat.one_pos
      exact hoc.hooks_open (List.count_pos_iff.1 hpos)
    · intro hn slot ho
      have hno := hn slot ((hall slot).1 ho)
      have hm := (hsl slot ho).resolve_left fun hx => by rw [hno] at hx; cases hx
      exact List.count_eq_one_of_mem hS.held.closed_nodup hm
  refine ⟨req, hreq, hclosed, fun hal => ?_⟩
  have hsince := Runtime.since_of_run h hl.spared hl.run hal.others
  obtain ⟨hS', -⟩ := Runtime.sound_of_spared h
  rw [← hclosed]
  have hkept : ∀ fd file, s.files.lookup fd = some file → t.files.lookup fd = some file := by
    intro fd file hf
    rcases hsince.lost fd file hf with hf' | ⟨k', slot, rfl, hc⟩
    · exact hf'
    · rcases hal.closed _ hc with hc | hk
      · exact absurd hc (hS'.held.tag_open hf)
      · have hlt := hS'.held.opened_lt (hS'.held.tag_opened hf)
        exact absurd hlt (Nat.not_lt.2 (hl.new.trans_eq hk.symm))
  constructor
  · intro hkeys slot ho
    by_contra hne
    have hnot : (w.found, slot) ∉ t.closed := fun hm =>
      hne (List.count_eq_one_of_mem hS.held.closed_nodup hm)
    obtain ⟨fd, hfd⟩ := hoc.still_open ho hnot
    have hm : fd ∈ s.files.keys := hkeys ▸ Table.mem_keys_iff.2 ⟨_, hfd⟩
    obtain ⟨file, hf⟩ := Table.mem_keys_iff.1 hm
    cases (hkept fd file hf).symm.trans hfd
    have hlt := hS'.held.opened_lt (hS'.held.tag_opened hf)
    exact absurd hlt (Nat.not_lt.2 hl.new)
  · intro hc
    ext fd
    rw [Table.mem_keys_iff, Table.mem_keys_iff]
    constructor
    · rintro ⟨file, hf⟩
      rcases hsince.gained fd file hf with hf' | ⟨k', slot, rfl, ho, hn⟩
      · exact ⟨file, hf'⟩
      · cases (hal.opened _ ho).resolve_left hn
        have hpos : 0 < t.closed.count (w.found, slot) := by
          rw [hc slot ho]
          exact Nat.one_pos
        exact absurd (List.count_pos_iff.1 hpos) (hS.held.tag_open hf)
    · rintro ⟨file, hf⟩
      exact ⟨file, hkept fd file hf⟩

theorem Runtime.life_of_play {l : List RuntimeAction}
    (hr : (processRuntime.runIf Runtime.NewPids (.boot ∅) l).isSome)
    (hw : ((Runtime.play l).waits.lookup 0).map (fun w => (w.found, w.phase)) =
      some (0, .returned 7)) : Runtime.Life (.boot ∅) (.play l) l 0 := by
  obtain ⟨t, ht⟩ := Option.isSome_iff_exists.1 hr
  have hp : Runtime.play l = t := by
    rw [Runtime.play]
    rw [ht]
    rfl
  obtain ⟨hrun, ha⟩ := System.run_of_runIf ht
  obtain ⟨w, hw, hx⟩ := Option.map_eq_some_iff.1 hw
  rw [hp] at hw ⊢
  exact ⟨hrun, ha.mono fun _ _ h => h.spared, Nat.le_refl _, 0, w, 7, hw,
    congrArg Prod.fst hx, congrArg Prod.snd hx⟩

/-- A container with a terminal and one namespace to join, whose standard input is closed. -/
def terminalLife : List RuntimeAction :=
  .begin ⟨"c1", "init", true, true, 1, 0⟩ :: [0, 1, 2, 3, 4, 5, 6, 7, 0, 8, 9, 10, 11, 12, 13, 10,
    0, 0, 0, 0, 0, 0, 0, 0, 0, 2, 5, 7, 0, 0, 0].map .start ++
    [.closeStdin "c1" "init" 10, .exit 0 (.exited 7), .reap 0, .record "c1",
      .waitLookup 0 "c1" "init" 10, .waitRead 0, .waitFinish 0]

theorem Runtime.life_closes_terminalLife :
    (Runtime.play terminalLife).opened.length = 17 ∧
      ∃ req, (Runtime.play terminalLife).StartedFor 0 req ∧
        ((Runtime.play terminalLife).AllClosed 0 ↔ req.hookless) ∧
        ((Runtime.play terminalLife).files.keys = (Runtime.boot ∅).files.keys ↔ req.hookless) := by
  have hl := Runtime.life_of_play (l := terminalLife) (by decide) (by decide +kernel)
  obtain ⟨req, hreq, hc, hf⟩ := Runtime.life_closes (.init Runtime.boot_init) hl
  refine ⟨by decide, req, hreq, hc, hf ⟨by decide, ?_, ?_⟩⟩
  · exact fun x hx => .inr ((by decide : ∀ x ∈ (Runtime.play terminalLife).opened,
      x.1 = 0) x hx)
  · exact fun x hx => .inr ((by decide : ∀ x ∈ (Runtime.play terminalLife).closed,
      x.1 = 0) x hx)

/-- A container whose spec has one hook. -/
def hookedLife : List RuntimeAction :=
  .begin ⟨"c1", "init", true, false, 0, 1⟩ :: [0, 1, 2, 3, 4, 5, 0, 6, 7, 8, 9, 10, 10, 0, 0, 8, 9,
    0, 0, 0, 0, 0, 0, 0, 3, 0].map .start ++
    [.exit 0 (.exited 7), .reap 0, .record "c1", .waitLookup 0 "c1" "init" 10, .waitRead 0,
      .waitFinish 0]

theorem Runtime.life_leaks : ¬ ∀ (s t : Runtime) (l : List RuntimeAction) (k : Nat),
    processRuntime.Reachable s → s.Life t l k → s.Alone t l k →
      t.files.keys = s.files.keys ∧ t.AllClosed k := by
  intro h
  have hl := Runtime.life_of_play (l := hookedLife) (by decide) (by decide)
  have hal : Runtime.Alone (.boot ∅) (.play hookedLife) hookedLife 0 := by
    refine ⟨by decide, ?_, ?_⟩
    · exact fun x hx => .inr ((by decide : ∀ x ∈ (Runtime.play hookedLife).opened,
        x.1 = 0) x hx)
    · exact fun x hx => .inr ((by decide : ∀ x ∈ (Runtime.play hookedLife).closed,
        x.1 = 0) x hx)
  have hc := (h _ _ _ _ (.init Runtime.boot_init) hl hal).2 (.hookRfd 0) (by decide)
  exact absurd hc (by decide)

end KataAgent
