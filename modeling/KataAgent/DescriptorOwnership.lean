import KataAgent.RuntimeEffects
import KataAgent.StartProgram

namespace KataAgent
open Transition
set_option autoImplicit true

/-- What a running start keeps about its descriptors. -/
structure Runtime.StartHeld (s : Runtime) (st : Starting) : Prop where
  id_lt : st.id < s.next
  fresh : ∀ {c p e}, s.entry c p = some e → e.owner ≠ st.id
  slot_file : ∀ {slot fd}, st.slots.lookup slot = some fd →
    s.files.lookup fd = some (.start st.id slot)
  accounted : ∀ {slot}, (st.id, slot) ∈ s.opened →
    (st.id, slot) ∈ s.closed ∨ ∃ fd, st.slots.lookup slot = some fd
  tidy : Tidy st.rest
  unopened : ∀ {slot}, .openAt slot ∈ st.rest → (st.id, slot) ∉ s.opened
  pending : ∀ {slot fd}, st.slots.lookup slot = some fd → slot.left ∨ .close slot ∈ st.rest
  exitR : .openAt .exitPipeR ∈ st.rest ∨ st.slots.lookup .exitPipeR ≠ none
  exitW : .openAt .exitPipeW ∈ st.rest ∨ st.slots.lookup .exitPipeW ≠ none

/-- What a registered record keeps about its descriptors. -/
structure Runtime.EntryHeld (s : Runtime) (e : ProcessRecord) : Prop where
  owner_lt : e.owner < s.next
  exitR : e.exitPipeR ≠ none
  exitW : e.exitPipeW ≠ none
  fd_file : ∀ {slot fd}, e.fd slot = some fd → (e.owner, slot) ∉ s.closed →
    s.files.lookup fd = some (.start e.owner slot)
  fd_open : ∀ {slot fd}, e.fd slot = some fd → slot ≠ .exitPipeW → (e.owner, slot) ∉ s.closed
  fd_opened : ∀ {slot fd}, e.fd slot = some fd → (e.owner, slot) ∈ s.opened
  accounted : ∀ {slot}, (e.owner, slot) ∈ s.opened →
    (e.owner, slot) ∈ s.closed ∨ slot.ofHook ∨ e.fd slot ≠ none

/-- Every descriptor of a start is open under one number until its one closing, and a record's
descriptors are its own. -/
structure Runtime.Held (s : Runtime) : Prop where
  tag_opened : ∀ {fd k slot}, s.files.lookup fd = some (.start k slot) → (k, slot) ∈ s.opened
  tag_open : ∀ {fd k slot}, s.files.lookup fd = some (.start k slot) → (k, slot) ∉ s.closed
  tag_inj : ∀ {fd fd' k slot}, s.files.lookup fd = some (.start k slot) →
    s.files.lookup fd' = some (.start k slot) → fd = fd'
  opened_lt : ∀ {k slot}, (k, slot) ∈ s.opened → k < s.next
  closed_opened : ∀ {x}, x ∈ s.closed → x ∈ s.opened
  closed_nodup : s.closed.Nodup
  owner_inj : ∀ {c p e c' p' e'}, s.entry c p = some e → s.entry c' p' = some e' →
    e.owner = e'.owner → c = c' ∧ p = p'
  entry : ∀ {c p e}, s.entry c p = some e → s.EntryHeld e
  start : ∀ {st}, s.starting = some st → s.StartHeld st

variable {s t : Runtime} {e : ProcessRecord}

/-- The part of it that is about the open files alone. -/
structure Runtime.Ledger (s : Runtime) : Prop where
  tag_opened : ∀ {fd k slot}, s.files.lookup fd = some (.start k slot) → (k, slot) ∈ s.opened
  tag_open : ∀ {fd k slot}, s.files.lookup fd = some (.start k slot) → (k, slot) ∉ s.closed
  tag_inj : ∀ {fd fd' k slot}, s.files.lookup fd = some (.start k slot) →
    s.files.lookup fd' = some (.start k slot) → fd = fd'
  opened_lt : ∀ {k slot}, (k, slot) ∈ s.opened → k < s.next
  closed_opened : ∀ {x}, x ∈ s.closed → x ∈ s.opened
  closed_nodup : s.closed.Nodup

theorem Runtime.Held.ledger (hs : s.Held) : s.Ledger := { hs with }

theorem Runtime.Ledger.closeAll {fds : List (Slot × RawFd)} (hl : s.Ledger)
    (hown : ∀ slot fd, (slot, fd) ∈ fds → s.files.lookup fd = some (.start owner slot))
    (hnd : (fds.map Prod.fst).Nodup) : (s.closeAll owner fds).Ledger where
  tag_opened h := hl.tag_opened (Runtime.lookup_closeAll_some h).2
  tag_open := by
    intro fd k slot h hc
    obtain ⟨hne, hf⟩ := Runtime.lookup_closeAll_some h
    rcases Runtime.mem_closed_closeAll.1 hc with hc | ⟨rfl, fd', hm⟩
    · exact hl.tag_open hf hc
    · cases hl.tag_inj hf (hown slot fd' hm)
      exact hne slot hm
  tag_inj h h' := hl.tag_inj (Runtime.lookup_closeAll_some h).2 (Runtime.lookup_closeAll_some h').2
  opened_lt := hl.opened_lt
  closed_opened := by
    rintro ⟨k, slot⟩ hc
    rcases Runtime.mem_closed_closeAll.1 hc with hc | ⟨rfl, fd, hm⟩
    · exact hl.closed_opened hc
    · exact hl.tag_opened (hown slot fd hm)
  closed_nodup := by
    apply List.nodup_append.2
    refine ⟨hl.closed_nodup, ?_, ?_⟩
    · have h : (fds.map fun q => (owner, q.1)) = (fds.map Prod.fst).map (Prod.mk owner) := by
        rw [List.map_map]
        rfl
      rw [h]
      exact hnd.map fun a b hab => congrArg Prod.snd hab
    · rintro y hy z hz rfl
      obtain ⟨⟨slot, fd⟩, hm, rfl⟩ := List.mem_map.1 hz
      exact hl.tag_open (hown slot fd hm) hy

/-- Of a record's descriptors only `exit_pipe_w` may be closed already. -/
theorem Runtime.EntryHeld.fds_open (hy : s.EntryHeld e) {slots : List Slot}
    (hs : Slot.exitPipeW ∉ slots) {slot : Slot} {fd : RawFd} (hm : (slot, fd) ∈ e.fds slots) :
    e.fd slot = some fd ∧ (e.owner, slot) ∉ s.closed := by
  obtain ⟨hsl, hfd⟩ := ProcessRecord.mem_fds.1 hm
  exact ⟨hfd, hy.fd_open hfd fun hx => hs (hx ▸ hsl)⟩

/-- A step that only drops records, or a start, keeps the descriptors of starts as they are. -/
theorem Runtime.Held.frame (hs : s.Held)
    (hf : ∀ fd k slot, t.files.lookup fd = some (.start k slot) ↔
      s.files.lookup fd = some (.start k slot))
    (he : ∀ c p e, t.entry c p = some e → s.entry c p = some e)
    (hst : ∀ st, t.starting = some st → s.starting = some st)
    (ho : t.opened = s.opened) (hc : t.closed = s.closed) (hn : s.next ≤ t.next) : t.Held where
  tag_opened h := ho ▸ hs.tag_opened ((hf _ _ _).1 h)
  tag_open h := hc ▸ hs.tag_open ((hf _ _ _).1 h)
  tag_inj h h' := hs.tag_inj ((hf _ _ _).1 h) ((hf _ _ _).1 h')
  opened_lt h := (hs.opened_lt (ho ▸ h)).trans_le hn
  closed_opened h := ho ▸ hs.closed_opened (hc ▸ h)
  closed_nodup := hc ▸ hs.closed_nodup
  owner_inj h h' := hs.owner_inj (he _ _ _ h) (he _ _ _ h')
  entry h := by
    have hh := hs.entry (he _ _ _ h)
    exact {
      owner_lt := hh.owner_lt.trans_le hn
      exitR := hh.exitR
      exitW := hh.exitW
      fd_file := fun hfd hcl => (hf _ _ _).2 (hh.fd_file hfd (hc ▸ hcl))
      fd_open := fun hfd hne => hc ▸ hh.fd_open hfd hne
      fd_opened := fun hfd => ho ▸ hh.fd_opened hfd
      accounted := fun hop => hc ▸ hh.accounted (ho ▸ hop) }
  start h := by
    have hh := hs.start (hst _ h)
    exact {
      id_lt := hh.id_lt.trans_le hn
      fresh := fun hen => hh.fresh (he _ _ _ hen)
      slot_file := fun hsl => (hf _ _ _).2 (hh.slot_file hsl)
      accounted := fun hop => hc ▸ hh.accounted (ho ▸ hop)
      tidy := hh.tidy
      unopened := fun hm => ho ▸ hh.unopened hm
      pending := hh.pending
      exitR := hh.exitR
      exitW := hh.exitW }

/-- The program of a new start still opens both ends of the exit pipe. -/
theorem StartRequest.program_exit_pipe (req : StartRequest) :
    .openAt .exitPipeR ∈ req.program ∧ .openAt .exitPipeW ∈ req.program := by
  simp [StartRequest.program, startParent]

theorem Runtime.Held.begin (hs : s.Held) (req : StartRequest) : Runtime.Held { s with
    next := s.next + 1
    starting := some ⟨s.next, req, ∅, none, req.program⟩ } where
  tag_opened := hs.tag_opened
  tag_open := hs.tag_open
  tag_inj := hs.tag_inj
  opened_lt := fun ho => (hs.opened_lt ho).trans (Nat.lt_succ_self _)
  closed_opened := hs.closed_opened
  closed_nodup := hs.closed_nodup
  owner_inj := hs.owner_inj
  entry := fun he => { hs.entry he with
    owner_lt := (hs.entry he).owner_lt.trans (Nat.lt_succ_self _) }
  start := by
    intro st hst
    cases hst
    exact {
      id_lt := Nat.lt_succ_self _
      fresh := fun he => (hs.entry he).owner_lt.ne
      slot_file := fun h => by cases h
      accounted := fun ho => absurd (hs.opened_lt ho) (Nat.lt_irrefl _)
      tidy := req.program_tidy
      unopened := fun _ ho => absurd (hs.opened_lt ho) (Nat.lt_irrefl _)
      pending := fun h => by cases h
      exitR := .inl req.program_exit_pipe.1
      exitW := .inl req.program_exit_pipe.2 }

/-- The next instruction is neither an opening nor a closing. -/
theorem Runtime.StartHeld.skip (h : s.StartHeld st) (hr : st.rest = i :: rest)
    (ho : ∀ slot, i ≠ .openAt slot) (hc : ∀ slot, i ≠ .close slot) :
    s.StartHeld { st with rest := rest } := by
  have hmem : ∀ slot, .openAt slot ∈ st.rest → .openAt slot ∈ rest := by
    intro slot hm
    rw [hr] at hm
    exact (List.mem_cons.1 hm).resolve_left fun hi => ho slot hi.symm
  exact {
    id_lt := h.id_lt
    fresh := h.fresh
    slot_file := h.slot_file
    accounted := h.accounted
    tidy := (hr ▸ h.tidy).tail
    unopened := fun hm => h.unopened (hr ▸ List.mem_cons_of_mem i hm)
    pending := by
      intro slot fd hsl
      rcases h.pending hsl with hl | hm
      · exact .inl hl
      · rw [hr] at hm
        exact .inr ((List.mem_cons.1 hm).resolve_left fun hi => hc slot hi.symm)
    exitR := h.exitR.imp_left (hmem _)
    exitW := h.exitW.imp_left (hmem _) }

theorem Runtime.lookup_ne_of_notMem {n : RawFd} (hn : n ∉ s.files)
    (h : s.files.lookup fd = some file) : fd ≠ n := by
  rintro rfl
  rw [Table.notMem_iff.1 hn] at h
  cases h

/-- A descriptor is opened under a number that is free. -/
theorem Runtime.lookup_opened (hn : n ∉ s.files) (h : s.files.lookup fd = some file) :
    (s.files.insert n new).lookup fd = some file := by
  rw [Table.lookup_insert, if_neg (Runtime.lookup_ne_of_notMem hn h), h]

theorem Runtime.Ledger.openAt (hl : s.Ledger) (n : RawFd) (hk : k < s.next)
    (hnew : (k, slot) ∉ s.opened) : Runtime.Ledger { s with
      files := s.files.insert n (.start k slot)
      opened := s.opened ++ [(k, slot)] } := by
  have hold : ∀ {fd k' slot'}, (s.files.insert n (.start k slot)).lookup fd =
      some (.start k' slot') → (fd = n ∧ k' = k ∧ slot' = slot) ∨
        s.files.lookup fd = some (.start k' slot') := by
    intro fd k' slot' hf
    rcases Table.of_lookup_insert hf with ⟨hfd, hx⟩ | ⟨-, hf⟩
    · cases hx
      exact .inl ⟨hfd, rfl, rfl⟩
    · exact .inr hf
  exact {
    tag_opened := by
      intro fd k' slot' hf
      rcases hold hf with ⟨-, rfl, rfl⟩ | hf
      · exact List.mem_append_right _ List.mem_cons_self
      · exact List.mem_append_left _ (hl.tag_opened hf)
    tag_open := by
      intro fd k' slot' hf
      rcases hold hf with ⟨-, rfl, rfl⟩ | hf
      · exact fun hc => hnew (hl.closed_opened hc)
      · exact hl.tag_open hf
    tag_inj := by
      intro fd fd' k' slot' hf hf'
      rcases hold hf with ⟨h0, rfl, rfl⟩ | hx <;> rcases hold hf' with ⟨h1, h2, h3⟩ | hx'
      · exact h0.trans h1.symm
      · exact absurd (hl.tag_opened hx') hnew
      · exact absurd (hl.tag_opened hx) (h2 ▸ h3 ▸ hnew)
      · exact hl.tag_inj hx hx'
    opened_lt := by
      intro k' slot' ho
      rcases List.mem_append.1 ho with ho | ho
      · exact hl.opened_lt ho
      · cases List.mem_singleton.1 ho
        exact hk
    closed_opened := fun hc => List.mem_append_left _ (hl.closed_opened hc)
    closed_nodup := hl.closed_nodup }

theorem Runtime.Held.openAt (hs : s.Held) (hst : s.starting = some st)
    (hr : st.rest = .openAt slot :: rest) (hn : n ∉ s.files) :
    Runtime.Held { s with
      files := s.files.insert n (.start st.id slot)
      opened := s.opened ++ [(st.id, slot)]
      starting := some { st with rest := rest, slots := st.slots.insert slot n } } := by
  have hh := hs.start hst
  have htidy : Tidy (.openAt slot :: rest) := hr ▸ hh.tidy
  have hnew : (st.id, slot) ∉ s.opened := hh.unopened (hr ▸ List.mem_cons_self)
  have hslots : ∀ {slot'}, st.slots.lookup slot' ≠ none →
      (st.slots.insert slot n).lookup slot' ≠ none := by
    intro slot' hsl
    rw [Table.lookup_insert]
    split
    · exact Option.some_ne_none n
    · exact hsl
  have hexit : ∀ slot', .openAt slot' ∈ st.rest ∨ st.slots.lookup slot' ≠ none →
      .openAt slot' ∈ rest ∨ (st.slots.insert slot n).lookup slot' ≠ none := by
    rintro slot' (hm | hsl)
    · rw [hr] at hm
      rcases List.mem_cons.1 hm with hm | hm
      · cases hm
        rw [Table.lookup_insert, if_pos rfl]
        exact .inr (Option.some_ne_none n)
      · exact .inl hm
    · exact .inr (hslots hsl)
  exact { hs.ledger.openAt n hh.id_lt hnew with
    owner_inj := hs.owner_inj
    entry := by
      intro c p e he
      have hx := hs.entry he
      exact { hx with
        fd_file := fun hfd hc => Runtime.lookup_opened hn (hx.fd_file hfd hc)
        fd_opened := fun hfd => List.mem_append_left _ (hx.fd_opened hfd)
        accounted := by
          intro slot' ho
          rcases List.mem_append.1 ho with ho | ho
          · exact hx.accounted ho
          · exact absurd (congrArg Prod.fst (List.mem_singleton.1 ho)) (hh.fresh he) }
    start := by
      rintro _ ⟨⟩
      exact {
        id_lt := hh.id_lt
        fresh := hh.fresh
        slot_file := by
          intro slot' fd hsl
          rcases Table.of_lookup_insert hsl with ⟨hx, rfl⟩ | ⟨-, hsl⟩
          · rw [Table.lookup_insert, if_pos rfl, hx]
          · exact Runtime.lookup_opened hn (hh.slot_file hsl)
        accounted := by
          intro slot' ho
          rcases List.mem_append.1 ho with ho | ho
          · rcases hh.accounted ho with hc | ⟨fd, hfd⟩
            · exact .inl hc
            · exact .inr (Option.ne_none_iff_exists'.1 (hslots (by rw [hfd]; simp)))
          · cases List.mem_singleton.1 ho
            exact .inr ⟨n, by rw [Table.lookup_insert, if_pos rfl]⟩
        tidy := htidy.tail
        unopened := by
          intro slot' hm ho
          rcases List.mem_append.1 ho with ho | ho
          · exact hh.unopened (hr ▸ List.mem_cons_of_mem _ hm) ho
          · cases List.mem_singleton.1 ho
            exact htidy.head_notMem hm
        pending := by
          have hclose : ∀ {slot'}, .close slot' ∈ st.rest → .close slot' ∈ rest := by
            intro slot' hm
            rw [hr] at hm
            exact (List.mem_cons.1 hm).resolve_left (by rintro ⟨⟩)
          intro slot' fd hsl
          rcases Table.of_lookup_insert hsl with ⟨rfl, -⟩ | ⟨-, hsl⟩
          · exact (hh.tidy.closes (hr ▸ List.mem_cons_self)).imp_right hclose
          · exact (hh.pending hsl).imp_right hclose
        exitR := hexit _ hh.exitR
        exitW := hexit _ hh.exitW } }

theorem Runtime.Held.closeAt (hs : s.Held) (hst : s.starting = some st)
    (hr : st.rest = .close slot :: rest) (hfd : st.slots.lookup slot = some fd) :
    Runtime.Held { s.closeAll st.id [(slot, fd)] with
      starting := some { st with rest := rest, slots := st.slots.erase slot } } := by
  have hh := hs.start hst
  have hfile := hh.slot_file hfd
  have hleft : slot.left = false := hh.tidy.leaves (hr ▸ List.mem_cons_self)
  have hown : ∀ slot' fd', (slot', fd') ∈ [(slot, fd)] →
      s.files.lookup fd' = some (.start st.id slot') := by
    intro slot' fd' hm
    cases List.mem_singleton.1 hm
    exact hfile
  have hkeep : ∀ {fd' k slot'}, s.files.lookup fd' = some (.start k slot') →
      (k, slot') ≠ (st.id, slot) →
      (s.closeAll st.id [(slot, fd)]).files.lookup fd' = some (.start k slot') := by
    intro fd' k slot' hf hne
    apply Runtime.lookup_closeAll_start hown hf
    rintro rfl hm
    cases List.mem_singleton.1 hm
    exact hne rfl
  have hexit : ∀ slot', slot'.left → .openAt slot' ∈ st.rest ∨ st.slots.lookup slot' ≠ none →
      .openAt slot' ∈ rest ∨ (st.slots.erase slot).lookup slot' ≠ none := by
    rintro slot' hl (hm | hsl)
    · rw [hr] at hm
      exact .inl ((List.mem_cons.1 hm).resolve_left (by rintro ⟨⟩))
    · rw [Table.lookup_erase, if_neg]
      · exact .inr hsl
      · rintro rfl
        rw [hleft] at hl
        cases hl
  exact { hs.ledger.closeAll hown (List.nodup_singleton _) with
    owner_inj := hs.owner_inj
    entry := by
      intro c p e he
      have hx := hs.entry he
      have hne := hh.fresh he
      exact { hx with
        fd_file := fun hf hc => hkeep (hx.fd_file hf fun hc' => hc (List.mem_append_left _ hc'))
          fun heq => hne (congrArg Prod.fst heq)
        fd_open := by
          intro slot' fd' hf hw hc
          rcases List.mem_append.1 hc with hc | hc
          · exact hx.fd_open hf hw hc
          · exact hne (congrArg Prod.fst (List.mem_singleton.1 hc))
        accounted := fun ho => (hx.accounted ho).imp_left fun hc => List.mem_append_left _ hc }
    start := by
      rintro _ ⟨⟩
      have hsl : ∀ {slot' fd'}, (st.slots.erase slot).lookup slot' = some fd' →
          slot' ≠ slot ∧ st.slots.lookup slot' = some fd' := Table.of_lookup_erase
      exact {
        id_lt := hh.id_lt
        fresh := hh.fresh
        slot_file := fun h => hkeep (hh.slot_file (hsl h).2) fun heq =>
          (hsl h).1 (congrArg Prod.snd heq)
        accounted := by
          intro slot' ho
          by_cases hx : slot' = slot
          · exact .inl (List.mem_append_right _ (hx ▸ List.mem_singleton.2 rfl))
          · rcases hh.accounted ho with hc | ⟨fd', hfd'⟩
            · exact .inl (List.mem_append_left _ hc)
            · exact .inr ⟨fd', by rw [Table.lookup_erase, if_neg hx, hfd']⟩
        tidy := (hr ▸ hh.tidy).tail
        unopened := fun hm => hh.unopened (hr ▸ List.mem_cons_of_mem _ hm)
        pending := by
          intro slot' fd' h
          rcases hh.pending (hsl h).2 with hl | hm
          · exact .inl hl
          · rw [hr] at hm
            exact .inr ((List.mem_cons.1 hm).resolve_left (by
              rintro ⟨⟩
              exact (hsl h).1 rfl))
        exitR := hexit _ rfl hh.exitR
        exitW := hexit _ rfl hh.exitW } }

theorem Starting.lookup_of_record_fd {st : Starting} (h : st.record.fd slot = some fd) :
    st.slots.lookup slot = some fd := by
  cases slot <;> first | exact h | cases h

theorem Starting.record_fd_of_left {st : Starting} (h : st.slots.lookup slot = some fd)
    (hl : slot.left) : slot.ofHook ∨ st.record.fd slot ≠ none := by
  cases slot <;> first
    | exact .inr fun hn => by cases h.symm.trans hn
    | exact .inl hl

theorem Runtime.Held.register (hs : s.Held) (hst : s.starting = some st) (hr : st.rest = []) :
    (s.register st pid).Held := by
  have hh := hs.start hst
  have hf : (s.register st pid).files = s.files := Runtime.register_files
  have ho : (s.register st pid).opened = s.opened := Runtime.register_opened
  have hc : (s.register st pid).closed = s.closed := Runtime.register_closed
  have hn : (s.register st pid).next = s.next := Runtime.register_next
  have hexit : ∀ slot, .openAt slot ∈ st.rest ∨ st.slots.lookup slot ≠ none →
      st.slots.lookup slot ≠ none := by
    rintro slot (hm | hsl)
    · rw [hr] at hm
      cases hm
    · exact hsl
  have hrec : s.EntryHeld st.record := {
    owner_lt := hh.id_lt
    exitR := hexit _ hh.exitR
    exitW := hexit _ hh.exitW
    fd_file := fun hfd _ => hh.slot_file (Starting.lookup_of_record_fd hfd)
    fd_open := fun hfd _ => hs.tag_open (hh.slot_file (Starting.lookup_of_record_fd hfd))
    fd_opened := fun hfd => hs.tag_opened (hh.slot_file (Starting.lookup_of_record_fd hfd))
    accounted := by
      intro slot ho
      rcases hh.accounted ho with hc | ⟨fd, hfd⟩
      · exact .inl hc
      rcases hh.pending hfd with hl | hm
      · exact .inr (Starting.record_fd_of_left hfd hl)
      · rw [hr] at hm
        cases hm }
  have hent : ∀ {c p e}, (s.register st pid).entry c p = some e → s.EntryHeld e := by
    intro c p e he
    rcases Runtime.entry_register he with ⟨-, -, rfl⟩ | ⟨-, he⟩
    · exact hrec
    · exact hs.entry he
  exact {
    tag_opened := fun h => ho ▸ hs.tag_opened (hf ▸ h)
    tag_open := fun h => hc ▸ hs.tag_open (hf ▸ h)
    tag_inj := fun h h' => hs.tag_inj (hf ▸ h) (hf ▸ h')
    opened_lt := fun h => hn ▸ hs.opened_lt (ho ▸ h)
    closed_opened := fun h => ho ▸ hs.closed_opened (hc ▸ h)
    closed_nodup := hc ▸ hs.closed_nodup
    owner_inj := by
      intro c p e c' p' e' h h' heq
      rcases Runtime.entry_register h with ⟨rfl, rfl, rfl⟩ | ⟨-, h⟩ <;>
        rcases Runtime.entry_register h' with ⟨h1, h2, h3⟩ | ⟨-, h'⟩
      · exact ⟨h1.symm, h2.symm⟩
      · exact absurd heq.symm (hh.fresh h')
      · rw [h3] at heq
        exact absurd heq (hh.fresh h)
      · exact hs.owner_inj h h' heq
    entry := by
      intro c p e he
      have hx := hent he
      exact {
        owner_lt := hn ▸ hx.owner_lt
        exitR := hx.exitR
        exitW := hx.exitW
        fd_file := fun h h' => hf ▸ hx.fd_file h (hc ▸ h')
        fd_open := fun h h' => hc ▸ hx.fd_open h h'
        fd_opened := fun h => ho ▸ hx.fd_opened h
        accounted := fun h => hc ▸ hx.accounted (ho ▸ h) }
    start := fun h => by cases Runtime.register_starting.symm.trans h }

/-- The record after the closing of some of its descriptors. Only `exit_pipe_w` stays set. -/
structure ProcessRecord.Reduced (e : ProcessRecord) (fds : List (Slot × RawFd))
    (a : ProcessRecord) : Prop where
  owner : a.owner = e.owner
  exitR : a.exitPipeR = e.exitPipeR
  exitW : a.exitPipeW = e.exitPipeW
  fd : ∀ {slot fd}, a.fd slot = some fd →
    e.fd slot = some fd ∧ ((slot, fd) ∈ fds → slot = .exitPipeW)
  keeps : ∀ {slot fd}, e.fd slot = some fd → a.fd slot = some fd ∨ (slot, fd) ∈ fds

theorem Runtime.Held.reduce {fds : List (Slot × RawFd)} (hs : s.Held)
    (he : s.entry c p = some e)
    (hfds : ∀ {slot fd}, (slot, fd) ∈ fds → e.fd slot = some fd ∧ (e.owner, slot) ∉ s.closed)
    (hnd : (fds.map Prod.fst).Nodup) (hst : t.starting = none)
    (hf : t.files = (s.closeAll e.owner fds).files)
    (hc : t.closed = (s.closeAll e.owner fds).closed)
    (ho : t.opened = s.opened) (hn : t.next = s.next)
    (hent : ∀ {x y a}, t.entry x y = some a → (¬ (x = c ∧ y = p) ∧ s.entry x y = some a) ∨
      (x = c ∧ y = p ∧ e.Reduced fds a)) : t.Held := by
  have hx := hs.entry he
  have hown : ∀ slot fd, (slot, fd) ∈ fds → s.files.lookup fd = some (.start e.owner slot) :=
    fun _ _ hm => hx.fd_file (hfds hm).1 (hfds hm).2
  have hl := hs.ledger.closeAll hown hnd
  have hmem : ∀ {y : Nat × Slot}, y ∈ t.closed ↔ y ∈ s.closed ∨
      y.1 = e.owner ∧ ∃ fd, (y.2, fd) ∈ fds := hc ▸ Runtime.mem_closed_closeAll
  have hkeep : ∀ {fd k slot}, s.files.lookup fd = some (.start k slot) →
      (k = e.owner → (slot, fd) ∉ fds) → t.files.lookup fd = some (.start k slot) := by
    rw [hf]
    exact Runtime.lookup_closeAll_start hown
  exact {
    tag_opened := fun h => ho ▸ hl.tag_opened (hf ▸ h)
    tag_open := fun h => hc ▸ hl.tag_open (hf ▸ h)
    tag_inj := fun h h' => hl.tag_inj (hf ▸ h) (hf ▸ h')
    opened_lt := fun h => hn ▸ hl.opened_lt (ho ▸ h)
    closed_opened := fun h => ho ▸ hl.closed_opened (hc ▸ h)
    closed_nodup := hc ▸ hl.closed_nodup
    owner_inj := by
      intro x y a x' y' a' h h' heq
      rcases hent h with ⟨-, h⟩ | ⟨rfl, rfl, hr⟩ <;>
        rcases hent h' with ⟨-, h'⟩ | ⟨h1, h2, hr'⟩
      · exact hs.owner_inj h h' heq
      · rw [h1, h2]
        exact hs.owner_inj h he (heq.trans hr'.owner)
      · exact hs.owner_inj he h' (hr.owner.symm.trans heq)
      · exact ⟨h1.symm, h2.symm⟩
    entry := by
      intro x y a h
      rcases hent h with ⟨hne, h⟩ | ⟨-, -, hr⟩
      · have ha := hs.entry h
        have hown : a.owner ≠ e.owner := fun heq => hne (hs.owner_inj h he heq)
        exact {
          owner_lt := hn ▸ ha.owner_lt
          exitR := ha.exitR
          exitW := ha.exitW
          fd_file := fun hfd hcl => hkeep (ha.fd_file hfd fun hc => hcl (hmem.2 (.inl hc)))
            fun heq => absurd heq hown
          fd_open := fun hfd hw hcl => (hmem.1 hcl).elim (ha.fd_open hfd hw) fun h => hown h.1
          fd_opened := fun hfd => ho ▸ ha.fd_opened hfd
          accounted := fun hop => (ha.accounted (ho ▸ hop)).imp_left fun hc => hmem.2 (.inl hc) }
      · have hcl : ∀ {slot}, (e.owner, slot) ∈ t.closed →
            (e.owner, slot) ∈ s.closed ∨ ∃ fd, (slot, fd) ∈ fds :=
          fun h => (hmem.1 h).imp_right And.right
        exact {
          owner_lt := hr.owner ▸ hn ▸ hx.owner_lt
          exitR := hr.exitR ▸ hx.exitR
          exitW := hr.exitW ▸ hx.exitW
          fd_file := by
            intro slot fd hfd hcl'
            rw [hr.owner] at hcl' ⊢
            exact hkeep (hx.fd_file (hr.fd hfd).1 fun hc => hcl' (hmem.2 (.inl hc)))
              fun _ hm => hcl' (hmem.2 (.inr ⟨rfl, fd, hm⟩))
          fd_open := by
            intro slot fd hfd hw hcl'
            rw [hr.owner] at hcl'
            rcases hcl hcl' with hc | ⟨fd', hm⟩
            · exact hx.fd_open (hr.fd hfd).1 hw hc
            · cases (hfds hm).1.symm.trans (hr.fd hfd).1
              exact hw ((hr.fd hfd).2 hm)
          fd_opened := fun hfd => hr.owner ▸ ho ▸ hx.fd_opened (hr.fd hfd).1
          accounted := by
            intro slot hop
            rw [hr.owner, ho] at hop
            rw [hr.owner]
            rcases hx.accounted hop with hc | hk | hk
            · exact .inl (hmem.2 (.inl hc))
            · exact .inr (.inl hk)
            · obtain ⟨fd, hfd⟩ := Option.ne_none_iff_exists'.1 hk
              rcases hr.keeps hfd with ha | hm
              · exact .inr (.inr (by rw [ha]; exact Option.some_ne_none fd))
              · exact .inl (hmem.2 (.inr ⟨rfl, fd, hm⟩)) }
    start := fun h => by cases hst.symm.trans h }

theorem ProcessRecord.fd_nodup (e : ProcessRecord) {slots : List Slot} (h : slots.Nodup) :
    ((e.fds slots).map Prod.fst).Nodup := by
  apply List.Nodup.sublist _ h
  rw [ProcessRecord.fds]
  induction slots with
  | nil => exact .slnil
  | cons slot slots ih =>
    rw [List.filterMap_cons]
    have hs := ih (List.nodup_cons.1 h).2
    cases he : e.fd slot with
    | none => exact .cons _ hs
    | some fd => exact .cons_cons _ hs

theorem Runtime.Held.skip (hs : s.Held) (hst : s.starting = some st) (hr : st.rest = i :: rest)
    (ho : ∀ slot, i ≠ .openAt slot) (hc : ∀ slot, i ≠ .close slot) (child : Option Pid)
    (ht : t = { s with
      children := t.children
      fifos := t.fifos
      inherited := t.inherited
      starting := some { st with rest := rest, child := child } }) : t.Held := by
  have hh := (hs.start hst).skip hr ho hc
  rw [ht]
  exact {
    tag_opened := hs.tag_opened
    tag_open := hs.tag_open
    tag_inj := hs.tag_inj
    opened_lt := hs.opened_lt
    closed_opened := hs.closed_opened
    closed_nodup := hs.closed_nodup
    owner_inj := hs.owner_inj
    entry := fun he => { hs.entry he with }
    start := by
      rintro _ ⟨⟩
      exact { hh with } }

theorem ProcessRecord.reduced_exitCode (e : ProcessRecord) (code : Int) (w : RawFd) :
    e.Reduced [(.exitPipeW, w)] { e with exitCode := code } where
  owner := rfl
  exitR := rfl
  exitW := rfl
  fd := by
    intro slot fd hfd
    constructor
    · cases slot <;> exact hfd
    · intro hm
      cases List.mem_singleton.1 hm
      rfl
  keeps := by
    intro slot fd hfd
    cases slot <;> exact .inl hfd

theorem ProcessRecord.reduced_closeStdin (e : ProcessRecord) :
    e.Reduced (e.fds [.termMaster, .parentStdin])
      { e with termMaster := none, parentStdin := none } where
  owner := rfl
  exitR := rfl
  exitW := rfl
  fd := by
    intro slot fd hfd
    cases slot <;> first
      | cases hfd
      | exact ⟨hfd, fun hm => by cases (ProcessRecord.mem_fds.1 hm).1 with
          | tail _ h => cases h with
            | tail _ h => cases h⟩
  keeps := by
    intro slot fd hfd
    cases slot <;> first
      | exact .inl hfd
      | exact .inr (ProcessRecord.mem_fds.2 ⟨by decide, hfd⟩)

/-- The reaper comes to no record whose `exit_pipe_w` it has closed already. -/
def Runtime.ClosesOnce (s : Runtime) : RuntimeAction → Prop
  | .record containerId => ∀ pid ∈ s.reaper.pid, ∀ e ∈ s.entry containerId pid,
      (e.owner, .exitPipeW) ∉ s.closed
  | _ => True

instance : Decidable (Runtime.ClosesOnce s a) :=
  match a with
  | .record _ => inferInstanceAs (Decidable (∀ _ ∈ _, ∀ _ ∈ _, _ ∉ _))
  | .spawn .. | .exec .. | .exit .. | .reap .. | .begin .. | .start .. | .abandon .. | .hang
  | .waitLookup .. | .waitRead .. | .waitFinish .. | .readPick .. | .readReturn .. | .closeStdin ..
  | .removeContainer .. | .destroyContainer .. | .removeDestroyed .. | .hangDestroy ..
  | .createSandbox .. | .openOther .. | .closeOther .. => isTrue trivial

theorem Runtime.Held.step (hs : s.Held) (hc : s.ClosesOnce a) (h : s.step a = some t) :
    t.Held := by
  have hid : ∀ st, s.starting = some st → s.starting = some st := fun _ h => h
  have hen : ∀ c p e, s.entry c p = some e → s.entry c p = some e := fun _ _ _ h => h
  have hfr : ∀ fd k slot, s.files.lookup fd = some (.start k slot) ↔
      s.files.lookup fd = some (.start k slot) := fun _ _ _ => .rfl
  cases Runtime.step_effect h with
  | spawn h => exact hs.frame hfr hen hid rfl rfl (Nat.le_succ _)
  | @writeExit k pid status c e w hr hst he hw =>
    have hfds : ∀ {slot fd}, (slot, fd) ∈ [(Slot.exitPipeW, w)] →
        e.fd slot = some fd ∧ (e.owner, slot) ∉ s.closed := by
      intro slot fd hm
      cases List.mem_singleton.1 hm
      exact ⟨hw, hc pid (by rw [hr]; rfl) e he⟩
    apply Runtime.Held.reduce hs he hfds (List.nodup_singleton _)
    · exact hst
    · rfl
    · rfl
    · rfl
    · rfl
    · intro x y a ha
      rcases Runtime.entry_setEntry ha with ⟨rfl, rfl, rfl⟩ | ha
      · exact .inr ⟨rfl, rfl, e.reduced_exitCode status.code w⟩
      · exact .inl ha
  | begin h => exact hs.begin _
  | openAt hst hr hn => exact hs.openAt hst hr hn
  | closeAt hst hr hfd => exact hs.closeAt hst hr hfd
  | getContainer hst hr hm =>
    exact hs.skip hst hr (fun _ h => by cases h) (fun _ h => by cases h) _ rfl
  | makeFifo hst hr hm =>
    exact hs.skip hst hr (fun _ h => by cases h) (fun _ h => by cases h) _ rfl
  | fork hst hr hp =>
    exact hs.skip hst hr (fun _ h => by cases h) (fun _ h => by cases h) _ rfl
  | register hst hr hp => exact hs.register hst hr
  | abandon hst => exact hs.frame hfr hen (fun _ h => by cases h) rfl rfl le_rfl
  | @waitReturn i w e hw hp hst hn he =>
    have hfds : ∀ {slot fd}, (slot, fd) ∈ e.fds waitSlots →
        e.fd slot = some fd ∧ (e.owner, slot) ∉ s.closed := (hs.entry he).fds_open (by decide)
    apply Runtime.Held.reduce hs he hfds (e.fd_nodup (by decide))
    · exact hst
    · rfl
    · rfl
    · rfl
    · rfl
    · intro x y a ha
      exact .inl (Runtime.entry_removeEntry ha)
  | @closeStdin c eid p e hf =>
    obtain ⟨hl, he, -⟩ := Runtime.found_eq_some.1 hf
    have hfds : ∀ {slot fd}, (slot, fd) ∈ e.fds [.termMaster, .parentStdin] →
        e.fd slot = some fd ∧ (e.owner, slot) ∉ s.closed := (hs.entry he).fds_open (by decide)
    apply Runtime.Held.reduce hs he hfds (e.fd_nodup (by decide))
    · exact hl.1
    · rfl
    · rfl
    · rfl
    · rfl
    · intro x y a ha
      rcases Runtime.entry_setEntry ha with ⟨rfl, rfl, rfl⟩ | ha
      · exact .inr ⟨rfl, rfl, e.reduced_closeStdin⟩
      · exact .inl ha
  | removeFail => exact hs
  | removeContainer hl => exact hs.frame hfr (fun _ _ _ => Runtime.entry_erase) hid rfl rfl le_rfl
  | removeDestroyed hl h =>
    exact hs.frame hfr (fun _ _ _ => Runtime.entry_erase) hid rfl rfl le_rfl
  | @openOther n hn =>
    have hf : ∀ fd k slot, (s.files.insert n .other).lookup fd = some (.start k slot) ↔
        s.files.lookup fd = some (.start k slot) := by
      intro fd k slot
      rw [Table.lookup_insert]
      split
      · rename_i hfd
        rw [hfd, Table.notMem_iff.1 hn]
        exact ⟨nofun, nofun⟩
      · exact .rfl
    exact hs.frame hf hen hid rfl rfl le_rfl
  | @closeOther n hn =>
    have hf : ∀ fd k slot, (s.files.erase n).lookup fd = some (.start k slot) ↔
        s.files.lookup fd = some (.start k slot) := by
      intro fd k slot
      rw [Table.lookup_erase]
      split
      · rename_i hfd
        rw [hfd, hn]
        exact ⟨nofun, nofun⟩
      · exact .rfl
    exact hs.frame hf hen hid rfl rfl le_rfl
  | _ => exact hs.frame hfr hen hid rfl rfl le_rfl

theorem Runtime.Held.boot (h : processRuntime.init s) : s.Held := by
  obtain ⟨files, hf, rfl⟩ := h
  have hno : ∀ {fd k slot}, files.lookup fd ≠ some (.start k slot) := fun h => by
    cases hf _ _ h
  exact {
    tag_opened := fun h => absurd h hno
    tag_open := fun h => absurd h hno
    tag_inj := fun h => absurd h hno
    opened_lt := fun h => by cases h
    closed_opened := fun h => by cases h
    closed_nodup := List.nodup_nil
    owner_inj := fun h => by cases h
    entry := fun h => by cases h
    start := fun h => by cases h }

end KataAgent
