import KataAgent.ExitReaping

namespace KataAgent
open Transition
set_option autoImplicit true

variable {s t : Runtime} {e : ProcessRecord}

/-- `get_process` has one process to give for each exec id. -/
def Runtime.ExecIdsDistinct (s : Runtime) : Prop :=
  ∀ c p e p' e', s.entry c p = some e → s.entry c p' = some e' → e.execId = e'.execId → p = p'

/-- The requests that name a process by its exec id find one, however the map is walked. -/
theorem Runtime.ExecIdsDistinct.found_unique (hs : s.ExecIdsDistinct)
    (h : s.found c execId p = some e) (h' : s.found c execId p' = some e') : p = p' ∧ e = e' := by
  obtain ⟨-, he, hid⟩ := Runtime.found_eq_some.1 h
  obtain ⟨-, he', hid'⟩ := Runtime.found_eq_some.1 h'
  have hp := hs c p e p' e' he he' (hid.trans hid'.symm)
  rw [← hp] at he'
  exact ⟨hp, Option.some.inj (he.symm.trans he')⟩

/-- An `ExecProcess` request comes with an exec id that its container does not have. -/
def Runtime.ExecIdNew (s : Runtime) : RuntimeAction → Prop
  | .begin req => req.init = false → ∀ ps ∈ s.containers.lookup req.containerId, ∀ p ∈ ps.keys,
      ∀ e ∈ ps.lookup p, e.execId ≠ req.execId
  | _ => True

instance : Decidable (Runtime.ExecIdNew s a) :=
  match a with
  | .begin _ => inferInstanceAs (Decidable (_ = false → ∀ _ ∈ _, ∀ _ ∈ _, ∀ _ ∈ _, _ ≠ _))
  | .spawn .. | .exec .. | .exit .. | .reap .. | .record .. | .start .. | .abandon .. | .hang
  | .waitLookup .. | .waitRead .. | .waitFinish .. | .readPick .. | .readReturn .. | .closeStdin ..
  | .removeContainer .. | .destroyContainer .. | .removeDestroyed .. | .hangDestroy ..
  | .createSandbox .. | .openOther .. | .closeOther .. => isTrue trivial

/-- The exec id of an `ExecProcess` under way is not yet taken. -/
structure Runtime.ExecIdsKept (s : Runtime) : Prop where
  distinct : s.ExecIdsDistinct
  free : ∀ {st p e}, s.starting = some st → st.request.init = false →
    s.entry st.request.containerId p = some e → e.execId ≠ st.request.execId

/-- No record comes in or changes its exec id, and no start begins. -/
theorem Runtime.ExecIdsKept.frame (hs : s.ExecIdsKept)
    (he : ∀ c p e, t.entry c p = some e → ∃ e', s.entry c p = some e' ∧ e'.execId = e.execId)
    (hst : ∀ st', t.starting = some st' → ∃ st, s.starting = some st ∧
      st'.request = st.request) : t.ExecIdsKept where
  distinct := by
    intro c p e p' e' h h' heq
    obtain ⟨x, hx, hxe⟩ := he c p e h
    obtain ⟨y, hy, hye⟩ := he c p' e' h'
    exact hs.distinct c p x p' y hx hy (by rw [hxe, hye, heq])
  free := by
    intro st' p e h hi hen
    obtain ⟨st, hst, hr⟩ := hst st' h
    rw [hr] at hi hen ⊢
    obtain ⟨x, hx, hxe⟩ := he _ p e hen
    rw [← hxe]
    exact hs.free hst hi hx

/-- A new container has one process. -/
theorem Runtime.entry_register_init {st : Starting} (hi : st.request.init = true)
    (h : (s.register st pid).entry st.request.containerId p = some e) : p = pid := by
  rw [Runtime.register, if_pos hi] at h
  obtain ⟨ps, hc, hp⟩ := Runtime.entry_eq_some.1 h
  rw [Finmap.lookup_insert] at hc
  cases hc
  rcases Table.of_lookup_insert hp with ⟨hx, -⟩ | ⟨-, hx⟩
  · exact hx
  · cases hx

theorem Runtime.ExecIdsKept.register (hs : s.ExecIdsKept) (hst : s.starting = some st) :
    (s.register st pid).ExecIdsKept where
  distinct := by
    intro c p e p' e' h h' heq
    rcases Runtime.entry_register h with ⟨rfl, rfl, rfl⟩ | ⟨hne, hold⟩
    · cases hi : st.request.init with
      | true => exact (Runtime.entry_register_init hi h').symm
      | false =>
        rcases Runtime.entry_register h' with ⟨-, hp, -⟩ | ⟨-, hold'⟩
        · exact hp.symm
        · exact absurd heq.symm (hs.free hst hi hold')
    · rcases Runtime.entry_register h' with ⟨hc, hp, rfl⟩ | ⟨hne', hold'⟩
      · subst hc
        cases hi : st.request.init with
        | true => exact absurd ⟨rfl, Runtime.entry_register_init hi h⟩ hne
        | false => exact absurd heq (hs.free hst hi hold)
      · exact hs.distinct c p e p' e' hold hold' heq
  free := by
    intro st' p e h
    cases Runtime.register_starting.symm.trans h

theorem Runtime.ExecIdsKept.step (hs : s.ExecIdsKept) (hc : s.ExecIdNew a)
    (h : s.step a = some t) : t.ExecIdsKept := by
  have hen : ∀ c p e, s.entry c p = some e → ∃ e', s.entry c p = some e' ∧ e'.execId = e.execId :=
    fun _ _ e h => ⟨e, h, rfl⟩
  have hera : ∀ {cid} c p e,
      Runtime.entry { s with containers := s.containers.erase cid } c p = some e →
      ∃ e', s.entry c p = some e' ∧ e'.execId = e.execId :=
    fun _ _ e h => ⟨e, Runtime.entry_erase h, rfl⟩
  have hsame : ∀ st', s.starting = some st' → ∃ st, s.starting = some st ∧
      st'.request = st.request := fun st' h => ⟨st', h, rfl⟩
  have hadv : ∀ {st rest slots child}, s.starting = some st →
      ∀ st', some { st with slots := slots, rest := rest, child := child } = some st' →
        ∃ st, s.starting = some st ∧ st'.request = st.request := by
    rintro st rest slots child hst _ ⟨⟩
    exact ⟨st, hst, rfl⟩
  cases Runtime.step_effect h with
  | begin hl => exact {
      distinct := hs.distinct
      free := by
        rintro _ p e ⟨⟩ hi he
        obtain ⟨ps, hps, hp⟩ := Runtime.entry_eq_some.1 he
        exact hc hi ps hps p (Table.mem_keys_iff.2 ⟨e, hp⟩) e hp }
  | openAt hst hr hn => exact hs.frame hen (hadv hst)
  | closeAt hst hr hfd => exact hs.frame hen (hadv hst)
  | getContainer hst hr hm => exact hs.frame hen (hadv hst)
  | makeFifo hst hr hm => exact hs.frame hen (hadv hst)
  | fork hst hr hn => exact hs.frame hen (hadv hst)
  | register hst hr hp => exact hs.register hst
  | abandon hst => exact hs.frame hen fun _ h => by cases h
  | writeExit hr hst he hw =>
    refine hs.frame (fun c p a ha => ?_) hsame
    apply Runtime.entry_of_setEntry he ha
    · rfl
    · exact fun _ => rfl
  | closeStdin hf =>
    refine hs.frame (fun c p a ha => ?_) hsame
    apply Runtime.entry_of_setEntry (Runtime.found_eq_some.1 hf).2.1 ha
    · rfl
    · exact fun _ => rfl
  | waitReturn hw hp hst hn he =>
    exact hs.frame (fun c p a ha => ⟨a, (Runtime.entry_removeEntry ha).2, rfl⟩) hsame
  | removeContainer hl => exact hs.frame hera hsame
  | removeDestroyed hl hr => exact hs.frame hera hsame
  | _ => exact hs.frame hen hsame

/-- Exec ids stay apart as long as clients bring new ones. -/
theorem Runtime.exec_ids_distinct (h : processRuntime.Reach Runtime.ExecIdNew s) :
    s.ExecIdsDistinct := by
  have hk : s.ExecIdsKept := by
    apply h.invariant
    · rintro s ⟨files, -, rfl⟩
      exact ⟨fun _ _ _ _ _ h => (by cases h), fun h => (by cases h)⟩
    · exact fun s a t hs hc hst => hs.step hc hst
  exact hk.distinct

/-- `ExecProcess` in the first container, with the numbers that it gets. -/
def execRun (execId : String) (fds : List Nat) : List RuntimeAction :=
  .begin ⟨"c1", execId, false, false, 0, 0⟩ :: fds.map .start

def secondExec (execId : String) : List RuntimeAction :=
  firstCreate ++ execRun execId [5, 6, 7, 8, 9, 10, 0, 11, 12, 13, 14, 11, 0, 0, 0, 0, 0, 0, 0, 5,
    8, 0]

theorem Runtime.exec_ids_distinct_second : ∃ s : Runtime,
    (s.entry "c1" 11).map ProcessRecord.execId = some "second" ∧ s.ExecIdsDistinct := by
  have hr : (processRuntime.runIf Runtime.ExecIdNew (.boot ∅) (secondExec "second")).map
      (fun s => (s.entry "c1" 11).map ProcessRecord.execId) = some (some "second") := by
    decide
  obtain ⟨s, hs, hp⟩ := Option.map_eq_some_iff.1 hr
  exact ⟨s, hp, Runtime.exec_ids_distinct (.runIf (.init Runtime.boot_init) hs)⟩

/-- `ExecProcess` takes the exec id of the container's init process. -/
theorem Runtime.exec_ids_shared : ¬ ∀ s, processRuntime.Reachable s → s.ExecIdsDistinct := by
  intro h
  have hr : (processRuntime.run (.boot ∅) (secondExec "init")).map (fun s =>
      ((s.entry "c1" 10).map ProcessRecord.execId, (s.entry "c1" 11).map ProcessRecord.execId)) =
      some (some "init", some "init") := by decide
  obtain ⟨s, hs, hp⟩ := Option.map_eq_some_iff.1 hr
  obtain ⟨e, he, hx⟩ := Option.map_eq_some_iff.1 (congrArg Prod.fst hp)
  obtain ⟨e', he', hx'⟩ := Option.map_eq_some_iff.1 (congrArg Prod.snd hp)
  have hpid := h s (System.reachable_of_run Runtime.boot_init hs) _ _ e _ e' he he'
    (hx.trans hx'.symm)
  exact absurd hpid (by decide)

end KataAgent
