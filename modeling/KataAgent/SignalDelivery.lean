import KataAgent.RemovalVariants
import KataAgent.SignalMask

namespace KataAgent
open Fallible
set_option autoImplicit true

/-- The server, and the signals that processes took from it. -/
structure Signalling extends Server where
  kills : List (Int × Nat)

/-- `Process::signal`. -/
def Signalling.kill (g : HandlerGuest) (pid : Int) (sig : Nat) :
    Act Signalling ErrorKind Unit := do
  Act.lift (syscall (g.kill pid sig))
  Act.modify fun t => { t with kills := t.kills ++ [(pid, sig)] }

/-- The signal for a process: an init process without a handler for `SIGTERM` gets `SIGKILL`. -/
def sentSignal (g : HandlerGuest) (p : ServedProcess) (sig : Nat) : Nat :=
  if p.init && sig = sigterm && !g.signalHandled then sigkill else sig

/-- `do_signal_process`, with its signals. -/
def Signalling.doSignalProcess (cid eid : String) (signal : UInt32) (g : HandlerGuest) :
    Act Signalling ErrorKind Reply := do
  let found ← Act.read fun t : Signalling => t.toServer.findProcess cid eid true
  let (pid, p) ← Act.lift found
  match fromCInt signal with
  | none => Act.unwind
  | some sig => do
    Signalling.kill g pid (sentSignal g p sig)
    pure .empty

/-- The signals of one request. -/
def Server.signals (s : Server) (cid eid : String) (signal : UInt32) (g : HandlerGuest) :
    List (Int × Nat) :=
  (Signalling.doSignalProcess cid eid signal g ⟨s, []⟩).2.kills

/-- The processes of a container. -/
def Server.registered (s : Server) (cid : String) : List (Int × ServedProcess) :=
  if s.present cid then (s.inside cid).processes else []

/-- Without an exec id every process of the container gets the signal once; with one, the process of
that id does, and no other. -/
structure Signalled (s : Server) (cid eid : String) (signal : UInt32) (g : HandlerGuest) :
    Prop where
  everyone : eid = "" → ((s.signals cid eid signal g).map Prod.fst).Perm
    ((s.registered cid).map Prod.fst)
  one : eid ≠ "" → (∃ q ∈ s.registered cid, q.2.execId = eid) →
    ∃ q ∈ s.registered cid, q.2.execId = eid ∧ (s.signals cid eid signal g).map Prod.fst = [q.1]
  only : eid ≠ "" → ∀ k ∈ s.signals cid eid signal g,
    ∃ q ∈ s.registered cid, q.2.execId = eid ∧ q.1 = k.1
  requested : ∀ k ∈ s.signals cid eid signal g, ∃ q ∈ s.registered cid, ∃ sig,
    q.1 = k.1 ∧ fromCInt signal = some sig ∧ k.2 = sentSignal g q.2 sig

/-- The init process is the only one in the container if the request names none, and the process
that it finds takes the signal. -/
def Server.Reaches (s : Server) (cid eid : String) (signal : UInt32) (g : HandlerGuest) : Prop :=
  (eid = "" → s.registered cid = [] ∨
    ∃ p, s.registered cid = [((s.inside cid).initProcessPid, p)]) ∧
  ∀ pid p, s.findProcess cid eid true = .ok (pid, p) →
    ∃ sig, fromCInt signal = some sig ∧ g.kill pid (sentSignal g p sig) = none

section
variable {s : Server} {cid eid : String} {signal : UInt32} {g : HandlerGuest}
variable {q : Int × ServedProcess} {sig : Nat}

theorem Signalling.kill_shows (pid : Int) (sig : Nat) : Act.Shows Signalling.toServer
    (Signalling.kill g pid sig) (Act.lift (syscall (g.kill pid sig))) := by
  intro t
  rw [Signalling.kill, Act.bind_apply, Act.lift_apply, Act.lift_apply]
  cases syscall (g.kill pid sig) with
  | ok u => rfl
  | err e => rfl
  | panic => rfl

/-- The signals are those that the handler sends. -/
theorem Signalling.doSignalProcess_shows (cid eid : String) (signal : UInt32)
    (g : HandlerGuest) : Act.Shows Signalling.toServer
      (Signalling.doSignalProcess cid eid signal g)
      (KataAgent.doSignalProcess cid eid signal g) := by
  refine (Act.Shows.read fun s : Server => s.findProcess cid eid true).bind fun found => ?_
  refine (Act.Shows.lift found).bind fun q => ?_
  cases fromCInt signal with
  | none => exact .lift .panic
  | some sig => exact (Signalling.kill_shows q.1 _).bind fun _ => .lift (.ok Reply.empty)

theorem Server.signals_eq_nil (h : ∀ q, s.findProcess cid eid true ≠ .ok q) :
    s.signals cid eid signal g = [] := by
  rw [Server.signals, Signalling.doSignalProcess, Act.bind_ok (Act.read_apply _)]
  rw [Act.bind_apply, Act.lift_apply]
  cases hf : s.findProcess cid eid true with
  | ok q => exact absurd hf (h q)
  | err e => rfl
  | panic => rfl

theorem Server.signals_of_found (h : s.findProcess cid eid true = .ok q) :
    s.signals cid eid signal g =
      match fromCInt signal with
      | none => []
      | some sig =>
        if g.kill q.1 (sentSignal g q.2 sig) = none then [(q.1, sentSignal g q.2 sig)] else [] := by
  rw [Server.signals, Signalling.doSignalProcess, Act.bind_ok (Act.read_apply _)]
  dsimp only
  rw [h, Act.bind_ok (Act.lift_apply _)]
  cases fromCInt signal with
  | none => rfl
  | some sig =>
    dsimp only
    rw [Signalling.kill, Act.bind_assoc, Act.bind_apply, Act.lift_apply]
    cases hk : g.kill q.1 (sentSignal g q.2 sig) with
    | none => rfl
    | some e => rfl

/-- What the handler sends: one signal to the process that it finds, or nothing. -/
theorem Server.signals_cases (s : Server) (cid eid : String) (signal : UInt32)
    (g : HandlerGuest) : s.signals cid eid signal g = [] ∨
      ∃ q sig, s.findProcess cid eid true = .ok q ∧ fromCInt signal = some sig ∧
        g.kill q.1 (sentSignal g q.2 sig) = none ∧
        s.signals cid eid signal g = [(q.1, sentSignal g q.2 sig)] := by
  by_cases hf : ∃ q, s.findProcess cid eid true = .ok q
  · obtain ⟨q, hq⟩ := hf
    rw [Server.signals_of_found hq]
    cases hs : fromCInt signal with
    | none => exact .inl rfl
    | some sig =>
      by_cases hk : g.kill q.1 (sentSignal g q.2 sig) = none
      · exact .inr ⟨q, sig, hq, rfl, hk, if_pos hk⟩
      · exact .inl (if_neg hk)
  · exact .inl (Server.signals_eq_nil (not_exists.1 hf))

theorem Server.findProcess_unnamed : s.findProcess cid "" true = .ok q ↔
    (s.registered cid).find? (fun q => q.1 = (s.inside cid).initProcessPid) = some q := by
  rw [Server.findProcess, Server.registered]
  by_cases hp : s.present cid = true
  · rw [if_pos hp, if_pos hp, if_pos (by decide), Outcome.ofOption_eq_ok]
  · rw [if_neg hp, if_neg hp]
    exact ⟨fun h => (by cases h), fun h => (by cases h)⟩

theorem Server.findProcess_named (he : eid ≠ "") : s.findProcess cid eid true = .ok q ↔
    (s.registered cid).find? (fun q => q.2.execId = eid) = some q := by
  rw [Server.findProcess, Server.registered]
  by_cases hp : s.present cid = true
  · rw [if_pos hp, if_pos hp, if_neg (by simp [he]), Outcome.ofOption_eq_ok]
  · rw [if_neg hp, if_neg hp]
    exact ⟨fun h => (by cases h), fun h => (by cases h)⟩

theorem Server.mem_registered_of_found (h : s.findProcess cid eid true = .ok q) :
    q ∈ s.registered cid := by
  by_cases he : eid = ""
  · rw [he, Server.findProcess_unnamed] at h
    exact List.mem_of_find?_eq_some h
  · rw [Server.findProcess_named he] at h
    exact List.mem_of_find?_eq_some h

theorem Server.found_execId (he : eid ≠ "") (h : s.findProcess cid eid true = .ok q) :
    q.2.execId = eid := by
  rw [Server.findProcess_named he] at h
  have hd := List.find?_some h
  exact of_decide_eq_true hd

/-- Where one signal is due, one is sent. -/
theorem Signalled.exists_of_found (h : Signalled s cid eid signal g)
    (hf : s.findProcess cid eid true = .ok q) :
    ∃ sig, fromCInt signal = some sig ∧ g.kill q.1 (sentSignal g q.2 sig) = none := by
  have hmem := Server.mem_registered_of_found hf
  have hne : s.signals cid eid signal g ≠ [] := by
    intro hn
    by_cases he : eid = ""
    · have hp := h.everyone he
      rw [hn, List.map_nil, List.nil_perm, List.map_eq_nil_iff] at hp
      rw [hp] at hmem
      cases hmem
    · obtain ⟨r, -, -, hr⟩ := h.one he ⟨q, hmem, Server.found_execId he hf⟩
      rw [hn] at hr
      cases hr
  obtain hn | ⟨r, sig, hr, hs, hk, -⟩ := s.signals_cases cid eid signal g
  · exact absurd hn hne
  · cases hr.symm.trans hf
    exact ⟨sig, hs, hk⟩

/-- A single process that the signal without an exec id reaches is the init process. -/
theorem Signalled.registered_eq (h : Signalled s cid "" signal g) : s.registered cid = [] ∨
    ∃ p, s.registered cid = [((s.inside cid).initProcessPid, p)] := by
  have hp := h.everyone rfl
  obtain hn | ⟨q, sig, hq, -, -, hsig⟩ := s.signals_cases cid "" signal g
  · rw [hn, List.map_nil, List.nil_perm, List.map_eq_nil_iff] at hp
    exact .inl hp
  · have hmem := Server.mem_registered_of_found hq
    have hlen := hp.length_eq
    rw [hsig, List.length_map, List.length_map, List.length_singleton] at hlen
    obtain ⟨r, hr⟩ := List.length_eq_one_iff.1 hlen.symm
    rw [hr, List.mem_singleton] at hmem
    rw [Server.findProcess_unnamed] at hq
    have hd := List.find?_some hq
    have hinit : q.1 = (s.inside cid).initProcessPid := of_decide_eq_true hd
    refine .inr ⟨r.2, ?_⟩
    rw [hr, ← hinit, hmem]

theorem Server.Reaches.signals_eq (h : s.Reaches cid eid signal g)
    (hq : s.findProcess cid eid true = .ok q) :
    (s.signals cid eid signal g).map Prod.fst = [q.1] := by
  obtain ⟨sig, hs, hk⟩ := h.2 q.1 q.2 hq
  rw [Server.signals_of_found hq, hs]
  dsimp only
  rw [if_pos hk]
  rfl

theorem Server.signals_registered {k : Int × Nat} (hk : k ∈ s.signals cid eid signal g) :
    ∃ q sig, s.findProcess cid eid true = .ok q ∧ q.1 = k.1 ∧ fromCInt signal = some sig ∧
      k.2 = sentSignal g q.2 sig := by
  obtain hn | ⟨q, sig, hq, hs, -, hsig⟩ := s.signals_cases cid eid signal g
  · rw [hn] at hk
    cases hk
  · rw [hsig, List.mem_singleton] at hk
    rw [hk]
    exact ⟨q, sig, hq, rfl, hs, rfl⟩

theorem Server.Reaches.signalled (h : s.Reaches cid eid signal g) :
    Signalled s cid eid signal g := by
  apply Signalled.mk
  · rintro rfl
    rcases h.1 rfl with hr | ⟨p, hr⟩
    · have hn : ∀ q, s.findProcess cid "" true ≠ .ok q := by
        intro q hq
        have hm := Server.mem_registered_of_found hq
        rw [hr] at hm
        cases hm
      rw [Server.signals_eq_nil hn, hr]
      exact .nil
    · have hq : s.findProcess cid "" true = .ok ((s.inside cid).initProcessPid, p) := by
        rw [Server.findProcess_unnamed, hr]
        exact List.find?_cons_of_pos (decide_eq_true rfl)
      rw [h.signals_eq hq, hr]
      exact .refl _
  · rintro he ⟨q, hq, heq⟩
    have hsome : ((s.registered cid).find? fun q => q.2.execId = eid).isSome := by
      rw [List.find?_isSome]
      exact ⟨q, hq, decide_eq_true heq⟩
    obtain ⟨r, hr⟩ := Option.isSome_iff_exists.1 hsome
    have hf := (Server.findProcess_named he).2 hr
    exact ⟨r, Server.mem_registered_of_found hf, Server.found_execId he hf, h.signals_eq hf⟩
  · intro he k hk
    obtain ⟨q, sig, hq, hpid, -⟩ := Server.signals_registered hk
    exact ⟨q, Server.mem_registered_of_found hq, Server.found_execId he hq, hpid⟩
  · intro k hk
    obtain ⟨q, sig, hq, hpid, hs, hsent⟩ := Server.signals_registered hk
    exact ⟨q, Server.mem_registered_of_found hq, sig, hpid, hs, hsent⟩

/-- A signal request reaches what it addresses: every process once, or the one it names. -/
theorem signalled_iff (s : Server) (cid eid : String) (signal : UInt32) (g : HandlerGuest) :
    Signalled s cid eid signal g ↔ s.Reaches cid eid signal g := by
  constructor
  · intro h
    refine ⟨?_, fun pid p hf => h.exists_of_found hf⟩
    rintro rfl
    exact h.registered_eq
  · exact Server.Reaches.signalled

end

section
variable {sig : Nat} {pid : Int}

/-- A signal to a pid, noted when it is taken. -/
def killNoted (kill : Int → Nat → Option Errno) (sig : Nat) (pid : Int) :
    Act (List (Int × Nat)) ErrorKind PUnit := do
  Act.lift (syscall (kill pid sig))
  Act.modify fun kills => kills ++ [(pid, sig)]

/-- `LinuxContainer::signal`, which no handler calls. -/
def LinuxContainer.signal (ctr : LinuxContainer) (kill : Int → Nat → Option Errno) (sig : Nat)
    (all : Bool) : Act (List (Int × Nat)) ErrorKind PUnit := do
  (if all then ctr.processes else []).forM (killNoted kill sig)
  killNoted kill sig ctr.initProcessPid

theorem killNoted_apply {kill : Int → Nat → Option Errno} (hk : kill pid sig = none)
    (kills : List (Int × Nat)) :
    killNoted kill sig pid kills = (.ok (), kills ++ [(pid, sig)]) := by
  rw [killNoted, Act.bind_apply, Act.lift_apply, hk]
  rfl

theorem forM_killNoted {kill : Int → Nat → Option Errno} {pids : List Int}
    (hk : ∀ pid, kill pid sig = none) (kills : List (Int × Nat)) :
    pids.forM (killNoted kill sig) kills = (.ok (), kills ++ pids.map fun pid => (pid, sig)) := by
  induction pids generalizing kills with
  | nil =>
    rw [List.map_nil, List.append_nil]
    rfl
  | cons pid pids ih =>
    rw [List.map_cons, List.append_cons, ← ih]
    exact Act.bind_ok (killNoted_apply (hk pid) kills)

/-- The signal for all processes goes to a registered init process twice. -/
theorem LinuxContainer.signal_count {ctr : LinuxContainer} {kill : Int → Nat → Option Errno}
    {all : Bool} (hk : ∀ pid, kill pid sig = none) (hn : ctr.processes.Nodup) (pid : Int) :
    ((ctr.signal kill sig all []).2.map Prod.fst).count pid =
      (if all ∧ pid ∈ ctr.processes then 1 else 0) +
        if pid = ctr.initProcessPid then 1 else 0 := by
  rw [LinuxContainer.signal, Act.bind_ok (forM_killNoted hk []), killNoted_apply (hk _)]
  rw [List.nil_append, List.map_append, List.map_map, List.count_append]
  congr 1
  · cases all with
    | false => rfl
    | true => simp [Function.comp_def, hn.count]
  · rw [List.map_singleton, List.count_singleton]
    by_cases hp : ctr.initProcessPid = pid
    · simp [hp]
    · simp [hp, Ne.symm hp]

end

/-- A container with a process beside its init process. -/
def execPod : Server :=
  servedPod.setInside "pod"
    ⟨"1.0.1", [], 9, [(9, pipedProcess), (12, { pipedProcess with execId := "sh", init := false })],
      ∅⟩

/-- The signal for all processes goes to the init process alone. -/
theorem execPod_not_signalled : ¬ Signalled execPod "pod" "" 1 willingHandlers := by
  intro h
  have hp := (h.everyone rfl).length_eq
  revert hp
  decide

end KataAgent
