import Mathlib.Data.Fintype.EquivFin
import KataAgent.FirstProcesses
import KataAgent.NamedPipe

namespace KataAgent
open NamedPipe Transition
set_option autoImplicit true

/-- The end of `init_child` for a first process, once the parent has its last message: the `open`
of the fifo, the `read` from it, and `do_exec`, which gives up the descriptor. -/
inductive FirstPhase where
  | opening
  | reading
  | executing
  | executed
  deriving DecidableEq, Repr

/-- What the process has of its fifo then. -/
def FirstPhase.Has : FirstPhase → End → Prop
  | .opening, .opening _ => True
  | .reading, .held => True
  | .executing, .held => True
  | _, _ => False

/-- The `read` has returned. -/
def FirstPhase.released : FirstPhase → Bool
  | .executing => true
  | .executed => true
  | _ => false

/-- `exec` of the container object: its `open`, its `write`, and what follows. -/
inductive ExecPhase where
  | opening
  | opened
  | written
  deriving DecidableEq, Repr

def ExecPhase.Has : ExecPhase → End → Prop
  | .opening, .opening _ => True
  | .opened, .held => True
  | .written, .held => True
  | _, _ => False

/-- A `StartContainer` call in `exec`, which holds the sandbox mutex. -/
structure Execing where
  call : Nat
  containerId : String
  /-- The start that made the fifo at the path of the call. -/
  fifo : Nat
  phase : ExecPhase
  deriving DecidableEq, Repr

/-- The agent with its exec fifos, which first processes read and calls write. -/
structure FifoRuntime where
  runtime : Runtime
  /-- The fifo of each start; it lives on in its process when its directory is removed. -/
  pipes : Nat → Fifo Unit Nat
  firsts : Table Nat FirstPhase
  execing : Option Execing
  /-- The calls that wrote their byte, each with its container and the fifo. -/
  sent : Table Nat (String × Nat)
  /-- The calls that are over, each with its container and its error. -/
  answers : Table Nat (String × Option ErrorKind)

inductive FifoAction where
  | base (a : RuntimeAction)
  /-- `do_start_container` up to the `open` of `exec`. -/
  | startContainer (call : Nat) (containerId : String)
  | execOpened
  | execWrite
  /-- The rest of `exec`, with the error of the `close`. -/
  | execReturn (refused : Option Errno)
  /-- The clock is before 1970, where `exec` panics. -/
  | execUnwind
  | firstOpen (child : Nat)
  | firstOpened (child : Nat)
  | firstRead (child : Nat)
  | firstExec (child : Nat)
  deriving DecidableEq

/-- What needs the sandbox mutex. -/
def FifoAction.locked : FifoAction → Bool
  | .base a => !a.unlocked
  | .startContainer .. => true
  | .execOpened => true
  | .execWrite => true
  | .execReturn _ => true
  | .execUnwind => true
  | _ => false

def FifoRuntime.setPipe (s : FifoRuntime) (k : Nat) (p : Fifo Unit Nat) : FifoRuntime :=
  { s with pipes := Function.update s.pipes k p }

/-- The kernel closes what a process had open. -/
def FifoRuntime.closeEnds (s : FifoRuntime) : RuntimeAction → FifoRuntime
  | .exit k _ => s.setPipe k ((s.pipes k).leaveReader ())
  | _ => s

/-- A first process executes its program in `firstExec` only, and waits for no message of its
parent once it has come to its fifo. -/
def FifoRuntime.forbids (s : FifoRuntime) : RuntimeAction → Bool
  | .exec k => (s.runtime.firstOf k).isSome
  | .abandon _ true => (s.runtime.starting.bind fun st => s.firsts.lookup st.id).isSome
  | _ => false

def FifoRuntime.base (s : FifoRuntime) (a : RuntimeAction) : Option FifoRuntime :=
  if s.forbids a ∨ (s.execing ≠ none ∧ a.unlocked = false) then none
  else (s.runtime.step a).map fun r => { s.closeEnds a with runtime := r }

def FifoRuntime.answer (s : FifoRuntime) (i : Nat) (c : String) (e : Option ErrorKind) :
    FifoRuntime :=
  { s with
    execing := none
    answers := s.answers.insert i (c, e) }

def FifoRuntime.startContainer (s : FifoRuntime) (i : Nat) (c : String) : Option FifoRuntime :=
  if s.runtime.lockable ∧ s.execing = none ∧ i ∉ s.answers ∧ i ∉ s.sent then
    if c ∉ s.runtime.containers then some (s.answer i c (some (.nix .EINVAL)))
    else
      match s.runtime.fifos.lookup c with
      | none => some (s.answer i c (some (.nix .ENOENT)))
      | some k => some { s.setPipe k ((s.pipes k).comeWriter i) with
        execing := some ⟨i, c, k, .opening⟩ }
  else none

def FifoRuntime.execOpened (s : FifoRuntime) : Option FifoRuntime :=
  match s.execing with
  | some ⟨i, c, k, .opening⟩ => ((s.pipes k).enterWriter i).map fun p =>
    { s.setPipe k p with execing := some ⟨i, c, k, .opened⟩ }
  | _ => none

/-- A write that fails skips the `close` at the end. -/
def FifoRuntime.execWrite (s : FifoRuntime) : Option FifoRuntime :=
  match s.execing with
  | some ⟨i, c, k, .opened⟩ =>
    match (s.pipes k).write with
    | some p => some { s.setPipe k p with
      execing := some ⟨i, c, k, .written⟩
      sent := s.sent.insert i (c, k) }
    | none => some (s.answer i c (some (.nix .EPIPE)))
  | _ => none

/-- A `close` that fails closes all the same. -/
def FifoRuntime.execReturn (s : FifoRuntime) (refused : Option Errno) : Option FifoRuntime :=
  match s.execing with
  | some ⟨i, c, k, .written⟩ =>
    some ((s.setPipe k ((s.pipes k).leaveWriter i)).answer i c (refused.map .nix))
  | _ => none

def FifoRuntime.execUnwind (s : FifoRuntime) : Option FifoRuntime :=
  match s.execing with
  | some ⟨_, _, _, .written⟩ => some { s with
    runtime := { s.runtime with poisoned := true }
    execing := none }
  | _ => none

def FifoRuntime.setFirst (s : FifoRuntime) (k : Nat) (p : Fifo Unit Nat) (phase : FirstPhase) :
    FifoRuntime :=
  { s.setPipe k p with firsts := s.firsts.insert k phase }

/-- One step of a first process that runs and is not left waiting for its parent. -/
def FifoRuntime.firstStep (s : FifoRuntime) (k : Nat) (due : Option FirstPhase)
    (f : Fifo Unit Nat → Option (Fifo Unit Nat)) (phase : FirstPhase) : Option FifoRuntime :=
  if (s.runtime.firstOf k).isSome ∧ s.runtime.Runs k ∧ k ∉ s.runtime.stranded ∧
      s.firsts.lookup k = due then
    (f (s.pipes k)).map fun p => s.setFirst k p phase
  else none

def FifoRuntime.firstOpen (s : FifoRuntime) (k : Nat) : Option FifoRuntime :=
  s.firstStep k none (fun p => some (p.comeReader ())) .opening

def FifoRuntime.firstOpened (s : FifoRuntime) (k : Nat) : Option FifoRuntime :=
  s.firstStep k (some .opening) (fun p => p.enterReader ()) .reading

def FifoRuntime.firstRead (s : FifoRuntime) (k : Nat) : Option FifoRuntime :=
  s.firstStep k (some .reading) Fifo.read .executing

def FifoRuntime.firstExec (s : FifoRuntime) (k : Nat) : Option FifoRuntime :=
  (s.firstStep k (some .executing) (fun p => some (p.leaveReader ())) .executed).bind fun t =>
    (t.runtime.exec k).map fun r => { t with runtime := r }

def FifoRuntime.step (s : FifoRuntime) : FifoAction → Option FifoRuntime
  | .base a => s.base a
  | .startContainer i c => s.startContainer i c
  | .execOpened => s.execOpened
  | .execWrite => s.execWrite
  | .execReturn refused => s.execReturn refused
  | .execUnwind => s.execUnwind
  | .firstOpen k => s.firstOpen k
  | .firstOpened k => s.firstOpened k
  | .firstRead k => s.firstRead k
  | .firstExec k => s.firstExec k

def fifoRuntime : System FifoRuntime FifoAction where
  init s := processRuntime.init s.runtime ∧ s = ⟨s.runtime, fun _ => .empty, ∅, none, ∅, ∅⟩
  step := FifoRuntime.step

variable {r r' : Runtime} {s t : FifoRuntime} {c : String} {i k : Nat} {p : Fifo Unit Nat}

/-- A call wrote its byte into the fifo. -/
def FifoRuntime.Byte (s : FifoRuntime) (k : Nat) : Prop :=
  ∃ i c, s.sent.lookup i = some (c, k)

/-- The process came to its fifo, and runs. -/
def FifoRuntime.Present (s : FifoRuntime) (k : Nat) (phase : FirstPhase) : Prop :=
  s.runtime.Runs k ∧ s.firsts.lookup k = some phase

/-- What is known of the call in `exec`. -/
structure FifoRuntime.ExecSound (s : FifoRuntime) (ex : Execing) : Prop where
  lockable : s.runtime.lockable
  unanswered : ex.call ∉ s.answers
  named : ∀ c, s.runtime.firstOf ex.fifo = some c → c = ex.containerId
  sent : s.sent.lookup ex.call =
    if ex.phase = .written then some (ex.containerId, ex.fifo) else none
  writer : ∃ e, (s.pipes ex.fifo).writers.ends.lookup ex.call = some e ∧ ex.phase.Has e

structure FifoRuntime.Sound (s : FifoRuntime) : Prop where
  base : processRuntime.Reachable s.runtime
  pipe : ∀ k, (s.pipes k).Sound
  known : ∀ {k phase}, s.firsts.lookup k = some phase →
    (∃ c, s.runtime.firstOf k = some c) ∧ k ∉ s.runtime.stranded
  reader : ∀ {k e}, (s.pipes k).readers.ends.lookup () = some e →
    ∃ phase, s.Present k phase ∧ phase.Has e
  present : ∀ {k phase}, s.Present k phase → phase ≠ .executed →
    ∃ e, (s.pipes k).readers.ends.lookup () = some e
  execing : ∀ {ex}, s.execing = some ex → s.ExecSound ex
  /-- A writer leaves after its byte only. -/
  passed : ∀ {k}, 0 < (s.pipes k).writers.counter → (s.pipes k).writers.ends ≠ ∅ ∨ s.Byte k
  bytes : ∀ {k}, 0 < (s.pipes k).bytes → s.Byte k
  released : ∀ {k phase}, s.firsts.lookup k = some phase → phase.released = true → s.Byte k
  /-- A byte is written only where the process has come to the fifo. -/
  sent : ∀ {i c k}, s.sent.lookup i = some (c, k) →
    s.runtime.firstOf k = some c ∧ ∃ phase, s.firsts.lookup k = some phase
  answered : ∀ {i c}, s.answers.lookup i = some (c, none) → ∃ k, s.sent.lookup i = some (c, k)

@[simp] theorem FifoRuntime.setPipe_self (s : FifoRuntime) (k : Nat) (p : Fifo Unit Nat) :
    (s.setPipe k p).pipes k = p := Function.update_self ..

theorem FifoRuntime.setPipe_ne (s : FifoRuntime) (p : Fifo Unit Nat) (h : j ≠ k) :
    (s.setPipe k p).pipes j = s.pipes j := Function.update_of_ne h ..

/-- What holds of the new fifo and of all others. -/
theorem FifoRuntime.forall_setPipe (s : FifoRuntime) (P : Nat → Fifo Unit Nat → Prop)
    (hself : P k p) (hother : ∀ j, j ≠ k → P j (s.pipes j)) (j : Nat) :
    P j ((s.setPipe k p).pipes j) :=
  (Function.forall_update_iff s.pipes P).2 ⟨hself, hother⟩ j

theorem FirstPhase.has_executed (e : End) : ¬ FirstPhase.executed.Has e := by
  cases e with
  | opening => exact id
  | held => exact id

theorem FifoRuntime.Sound.started (hs : s.Sound) : s.runtime.Started :=
  .of_reachable hs.base

/-- A step of a first process changes its own end of its own fifo. -/
theorem FifoRuntime.Sound.setFirst (hs : s.Sound) (hk : s.runtime.firstOf k = some c)
    (hr : s.runtime.Runs k) (hn : k ∉ s.runtime.stranded) (hp : p.Sound)
    (hself : ∀ e, p.readers.ends.lookup () = some e → phase.Has e)
    (hthere : phase ≠ .executed → ∃ e, p.readers.ends.lookup () = some e)
    (hw : p.writers = (s.pipes k).writers) (hb : p.bytes ≤ (s.pipes k).bytes)
    (hg : phase.released = true → s.Byte k) : (s.setFirst k p phase).Sound := by
  have hwriters : ∀ j, ((s.setFirst k p phase).pipes j).writers = (s.pipes j).writers :=
    s.forall_setPipe (fun j q => q.writers = (s.pipes j).writers) hw fun _ _ => rfl
  have hbytes : ∀ j, ((s.setFirst k p phase).pipes j).bytes ≤ (s.pipes j).bytes :=
    s.forall_setPipe (fun j q => q.bytes ≤ (s.pipes j).bytes) hb fun _ _ => le_rfl
  constructor
  case base => exact hs.base
  case pipe => exact s.forall_setPipe (fun _ q => q.Sound) hp fun j _ => hs.pipe j
  case known =>
    intro j ph hj
    rcases Table.of_lookup_insert hj with ⟨rfl, -⟩ | ⟨-, hj⟩
    · exact ⟨⟨c, hk⟩, hn⟩
    · exact hs.known hj
  case reader =>
    intro j e hj
    by_cases hjk : j = k
    · subst hjk
      rw [FifoRuntime.setFirst, FifoRuntime.setPipe_self] at hj
      exact ⟨phase, ⟨hr, Finmap.lookup_insert _⟩, hself e hj⟩
    · rw [FifoRuntime.setFirst, FifoRuntime.setPipe_ne s p hjk] at hj
      obtain ⟨ph, ⟨hrj, hl⟩, hh⟩ := hs.reader hj
      exact ⟨ph, ⟨hrj, (Finmap.lookup_insert_of_ne _ hjk).trans hl⟩, hh⟩
  case present =>
    rintro j ph ⟨hrj, hl⟩ hne
    rcases Table.of_lookup_insert hl with ⟨rfl, rfl⟩ | ⟨hjk, hl⟩
    · rw [FifoRuntime.setFirst, FifoRuntime.setPipe_self]
      exact hthere hne
    · rw [FifoRuntime.setFirst, FifoRuntime.setPipe_ne s p hjk]
      exact hs.present ⟨hrj, hl⟩ hne
  case execing =>
    intro ex hex
    have h := hs.execing hex
    refine ⟨h.lockable, h.unanswered, h.named, h.sent, ?_⟩
    rw [hwriters]
    exact h.writer
  case passed =>
    intro j hpos
    rw [hwriters] at hpos ⊢
    exact hs.passed hpos
  case bytes => exact fun {j} hpos => hs.bytes (hpos.trans_le (hbytes j))
  case released =>
    intro j ph hl hph
    rcases Table.of_lookup_insert hl with ⟨rfl, rfl⟩ | ⟨-, hl⟩
    · exact hg hph
    · exact hs.released hl hph
  case sent =>
    intro i' c' j hi
    obtain ⟨hf, ph, hl⟩ := hs.sent hi
    refine ⟨hf, ?_⟩
    by_cases hjk : j = k
    · subst hjk
      exact ⟨phase, Finmap.lookup_insert _⟩
    · exact ⟨ph, (Finmap.lookup_insert_of_ne _ hjk).trans hl⟩
  case answered => exact hs.answered

/-- A step of a call changes its own end of its fifo, and may write its byte. -/
theorem FifoRuntime.Sound.setExec {execing : Option Execing} {sent : Table Nat (String × Nat)}
    (hs : s.Sound) (hp : p.Sound) (hr : p.readers.ends = (s.pipes k).readers.ends)
    (hex : ∀ ex ∈ execing,
      FifoRuntime.ExecSound { s.setPipe k p with execing := execing, sent := sent } ex)
    (hkeep : ∀ i x, s.sent.lookup i = some x → sent.lookup i = some x)
    (hnew : ∀ i c j, sent.lookup i = some (c, j) → s.sent.lookup i = some (c, j) ∨
      s.runtime.firstOf j = some c ∧ ∃ phase, s.firsts.lookup j = some phase)
    (hpassed : 0 < p.writers.counter → p.writers.ends ≠ ∅ ∨ ∃ i c, sent.lookup i = some (c, k))
    (hbytes : 0 < p.bytes → ∃ i c, sent.lookup i = some (c, k)) :
    FifoRuntime.Sound { s.setPipe k p with execing := execing, sent := sent } := by
  have hbyte : ∀ j, s.Byte j → ∃ i c, sent.lookup i = some (c, j) :=
    fun j ⟨i, c, hi⟩ => ⟨i, c, hkeep i _ hi⟩
  have hends : ∀ j, ((s.setPipe k p).pipes j).readers.ends = (s.pipes j).readers.ends :=
    s.forall_setPipe (fun j q => q.readers.ends = (s.pipes j).readers.ends) hr fun _ _ => rfl
  constructor
  case base => exact hs.base
  case pipe => exact s.forall_setPipe (fun _ q => q.Sound) hp fun j _ => hs.pipe j
  case known => exact hs.known
  case reader =>
    intro j e hj
    rw [hends] at hj
    exact hs.reader hj
  case present =>
    intro j ph hj hne
    rw [hends]
    exact hs.present hj hne
  case execing => exact fun {ex} he => hex ex he
  case passed =>
    exact s.forall_setPipe (fun j q => 0 < q.writers.counter →
        q.writers.ends ≠ ∅ ∨ ∃ i c, sent.lookup i = some (c, j))
      hpassed (fun j _ hpos => (hs.passed hpos).imp_right (hbyte j)) _
  case bytes =>
    exact s.forall_setPipe (fun j q => 0 < q.bytes → ∃ i c, sent.lookup i = some (c, j))
      hbytes (fun j _ hpos => hbyte j (hs.bytes hpos)) _
  case released => exact fun hl hph => hbyte _ (hs.released hl hph)
  case sent =>
    intro i c j hi
    rcases hnew i c j hi with h | h
    · exact hs.sent h
    · exact h
  case answered =>
    intro i c hi
    obtain ⟨j, hj⟩ := hs.answered hi
    exact ⟨j, hkeep i _ hj⟩

/-- The call is over; without an error only after its byte. -/
theorem FifoRuntime.Sound.answer (hs : s.Sound) (e : Option ErrorKind)
    (he : e = none → ∃ k, s.sent.lookup i = some (c, k)) : (s.answer i c e).Sound := by
  constructor
  case base => exact hs.base
  case pipe => exact hs.pipe
  case known => exact hs.known
  case reader => exact hs.reader
  case present => exact hs.present
  case execing => exact fun h => by cases h
  case passed => exact hs.passed
  case bytes => exact hs.bytes
  case released => exact hs.released
  case sent => exact hs.sent
  case answered =>
    intro j c' hj
    rcases Table.of_lookup_insert hj with ⟨rfl, h⟩ | ⟨-, hj⟩
    · cases h
      exact he rfl
    · exact hs.answered hj

/-- Only a step with the mutex can end what holds it. -/
theorem FifoRuntime.base_eq_some (h : s.base a = some t) :
    s.forbids a = false ∧ (s.execing = none ∨ a.unlocked = true) ∧
      ∃ r, s.runtime.step a = some r ∧ t = { s.closeEnds a with runtime := r } := by
  rw [FifoRuntime.base, Option.ite_none_left_eq_some, not_or, Bool.not_eq_true] at h
  obtain ⟨⟨hf, hl⟩, h⟩ := h
  obtain ⟨r, hr, ht⟩ := Option.map_eq_some_iff.1 h
  refine ⟨hf, ?_, r, hr, ht.symm⟩
  by_cases he : s.execing = none
  · exact .inl he
  · exact .inr (Bool.eq_true_of_not_eq_false fun hu => hl ⟨he, hu⟩)

/-- The fifos lose the end of a process that ends. -/
theorem FifoRuntime.closeEnds_cases (s : FifoRuntime) (a : RuntimeAction) :
    (s.closeEnds a = s ∧ ∀ k status, a ≠ .exit k status) ∨
      ∃ k status, a = .exit k status ∧
        s.closeEnds a = s.setPipe k ((s.pipes k).leaveReader ()) := by
  cases a with
  | exit k status => exact .inr ⟨k, status, rfl, rfl⟩
  | _ => exact .inl ⟨rfl, fun _ _ h => by cases h⟩

/-- The ends that are left are those of the processes that still run. -/
theorem FifoRuntime.Sound.closeEnds_lookup (hs : s.Sound) (h : s.runtime.step a = some r) :
    ((s.closeEnds a).pipes k).readers.ends.lookup () = some e ↔
      (s.pipes k).readers.ends.lookup () = some e ∧ r.Runs k := by
  have hkeep : (∀ status, a ≠ .exit k status) →
      (s.pipes k).readers.ends.lookup () = some e → r.Runs k := by
    intro ha hk
    obtain ⟨ph, ⟨hr, -⟩, -⟩ := hs.reader hk
    exact (hs.started.childEffect h).runs hr ha
  rcases s.closeEnds_cases a with ⟨he, ha⟩ | ⟨j, status, rfl, he⟩
  · rw [he]
    exact ⟨fun hk => ⟨hk, hkeep (ha k) hk⟩, And.left⟩
  · rw [he]
    by_cases hkj : k = j
    · subst hkj
      refine iff_of_false (fun hk => ?_) fun hk => Runtime.exit_not_runs h hk.2
      rw [FifoRuntime.setPipe_self, Fifo.leaveReader, Fifo.flush_readers] at hk
      exact (Table.of_lookup_erase hk).1 rfl
    · rw [FifoRuntime.setPipe_ne s _ hkj]
      refine ⟨fun hk => ⟨hk, hkeep ?_ hk⟩, And.left⟩
      rintro status' h'
      cases h'
      exact hkj rfl

theorem FifoRuntime.closeEnds_pipe (hs : (s.pipes k).Sound) (a : RuntimeAction) :
    ((s.closeEnds a).pipes k).Sound ∧
      ((s.closeEnds a).pipes k).readers.counter = (s.pipes k).readers.counter ∧
      ((s.closeEnds a).pipes k).writers = (s.pipes k).writers ∧
      ((s.closeEnds a).pipes k).bytes ≤ (s.pipes k).bytes := by
  rcases s.closeEnds_cases a with ⟨he, -⟩ | ⟨j, status, -, he⟩
  · rw [he]
    exact ⟨hs, rfl, rfl, le_rfl⟩
  · rw [he]
    by_cases hkj : k = j
    · subst hkj
      rw [FifoRuntime.setPipe_self]
      refine ⟨hs.leaveReader (), ?_, Fifo.flush_writers _, Fifo.flush_bytes_le _⟩
      rw [Fifo.leaveReader, Fifo.flush_readers]
      rfl
    · rw [FifoRuntime.setPipe_ne s _ hkj]
      exact ⟨hs, rfl, rfl, le_rfl⟩

theorem FifoRuntime.closeEnds_eq (s : FifoRuntime) (a : RuntimeAction) :
    s.closeEnds a = { s with pipes := (s.closeEnds a).pipes } := by
  rcases s.closeEnds_cases a with ⟨he, -⟩ | ⟨j, status, -, he⟩
  · rw [he]
  · rw [he]
    rfl

theorem FifoRuntime.Sound.base_step (hs : s.Sound) (h : s.base a = some t) : t.Sound := by
  obtain ⟨hforbid, hl, r, hr, rfl⟩ := FifoRuntime.base_eq_some h
  have hc := hs.started.childEffect hr
  have hlook {k : Nat} {e : End} := hs.closeEnds_lookup hr (k := k) (e := e)
  have hpipe (k : Nat) := FifoRuntime.closeEnds_pipe (hs.pipe k) a
  rw [FifoRuntime.closeEnds_eq]
  constructor
  case base => exact .step hs.base trivial hr
  case pipe => exact fun k => (hpipe k).1
  case known =>
    intro k ph hk
    obtain ⟨⟨c, hf⟩, hn⟩ := hs.known hk
    refine ⟨⟨c, hc.firstOf hf⟩, fun hst => ?_⟩
    rcases Runtime.step_stranded hr hst with hold | ⟨unwinds, st, rfl, hnow, rfl⟩
    · exact hn hold
    · rw [FifoRuntime.forbids, hnow, Option.bind_some, hk] at hforbid
      cases hforbid
  case reader =>
    intro k e hk
    obtain ⟨hk, hrun⟩ := hlook.1 hk
    obtain ⟨ph, ⟨-, hl⟩, hh⟩ := hs.reader hk
    exact ⟨ph, ⟨hrun, hl⟩, hh⟩
  case present =>
    rintro k ph ⟨hrun, hl⟩ hne
    obtain ⟨⟨c, hf⟩, -⟩ := hs.known hl
    obtain ⟨e, he⟩ := hs.present ⟨hc.runs_back hf hrun, hl⟩ hne
    exact ⟨e, hlook.2 ⟨he, hrun⟩⟩
  case execing =>
    intro ex hex
    have hx := hs.execing hex
    have ha : a.unlocked = true := hl.resolve_left fun hn => by cases hn.symm.trans hex
    refine ⟨Runtime.step_unlocked_lockable ha hr hx.lockable, hx.unanswered, ?_, hx.sent, ?_⟩
    · intro c hf
      apply hx.named c
      apply hc.firstOf_back _ hf
      rintro n rfl
      cases ha
    · dsimp only
      rw [(hpipe _).2.2.1]
      exact hx.writer
  case passed =>
    intro k hpos
    dsimp only at hpos ⊢
    rw [(hpipe k).2.2.1] at hpos ⊢
    exact hs.passed hpos
  case bytes => exact fun hpos => hs.bytes (hpos.trans_le (hpipe _).2.2.2)
  case released => exact hs.released
  case sent =>
    intro i c k hi
    obtain ⟨hf, hcame⟩ := hs.sent hi
    exact ⟨hc.firstOf hf, hcame⟩
  case answered => exact hs.answered

theorem FifoRuntime.firstStep_eq_some {f : Fifo Unit Nat → Option (Fifo Unit Nat)} :
    s.firstStep k due f phase = some t ↔ ((s.runtime.firstOf k).isSome ∧ s.runtime.Runs k ∧
      k ∉ s.runtime.stranded ∧ s.firsts.lookup k = due) ∧
      ∃ p, f (s.pipes k) = some p ∧ s.setFirst k p phase = t := by
  rw [FifoRuntime.firstStep, Option.ite_none_right_eq_some, Option.map_eq_some_iff]

theorem FifoRuntime.Sound.firstOpen (hs : s.Sound) (h : s.firstOpen k = some t) : t.Sound := by
  obtain ⟨⟨hf, hr, hn, -⟩, p, hp, rfl⟩ := FifoRuntime.firstStep_eq_some.1 h
  obtain ⟨c, hf⟩ := Option.isSome_iff_exists.1 hf
  cases hp
  apply hs.setFirst hf hr hn ((hs.pipe k).comeReader ())
  case hself =>
    intro e he
    rcases Table.of_lookup_insert he with ⟨-, rfl⟩ | ⟨hne, -⟩
    · trivial
    · exact absurd rfl hne
  case hthere => exact fun _ => ⟨_, Finmap.lookup_insert _⟩
  case hw => rfl
  case hb => exact le_rfl
  case hg => exact nofun

theorem FifoRuntime.Sound.firstOpened (hs : s.Sound) (h : s.firstOpened k = some t) :
    t.Sound := by
  obtain ⟨⟨hf, hr, hn, -⟩, p, hp, rfl⟩ := FifoRuntime.firstStep_eq_some.1 h
  obtain ⟨c, hf⟩ := Option.isSome_iff_exists.1 hf
  have hp' := (hs.pipe k).enterReader hp
  obtain ⟨-, rfl⟩ := Fifo.enterReader_eq_some.1 hp
  apply hs.setFirst hf hr hn hp'
  case hself =>
    intro e he
    rcases Table.of_lookup_insert he with ⟨-, rfl⟩ | ⟨hne, -⟩
    · trivial
    · exact absurd rfl hne
  case hthere => exact fun _ => ⟨_, Finmap.lookup_insert _⟩
  case hw => rfl
  case hb => exact le_rfl
  case hg => exact nofun

/-- A process that reads has its fifo open. -/
theorem FifoRuntime.Sound.reading_held (hs : s.Sound) (h : s.Present k .reading) :
    (s.pipes k).readers.ends.lookup () = some .held := by
  obtain ⟨e, he⟩ := hs.present h nofun
  obtain ⟨ph, ⟨-, hl⟩, hh⟩ := hs.reader he
  cases h.2.symm.trans hl
  cases e with
  | opening => exact hh.elim
  | held => exact he

theorem FifoRuntime.Sound.firstRead (hs : s.Sound) (h : s.firstRead k = some t) : t.Sound := by
  obtain ⟨⟨hf, hr, hn, hd⟩, p, hp, rfl⟩ := FifoRuntime.firstStep_eq_some.1 h
  obtain ⟨c, hf⟩ := Option.isSome_iff_exists.1 hf
  have hp' := (hs.pipe k).read hp
  obtain ⟨hb, rfl⟩ := Fifo.read_eq_some.1 hp
  have he := hs.reading_held ⟨hr, hd⟩
  apply hs.setFirst hf hr hn hp'
  case hself =>
    intro e' he'
    cases he.symm.trans he'
    trivial
  case hthere => exact fun _ => ⟨_, he⟩
  case hw => rfl
  case hb => exact Nat.sub_le ..
  case hg =>
    intro _
    rcases hb with hb | hb
    · exact hs.bytes hb
    · -- nothing is read once the last writer has left, which it does after its byte
      have hcame := (hs.pipe k).readers.entered he
      exact (hs.passed hcame).resolve_left fun hne => hne hb

/-- The copies that a child has of exit pipes play no part at the fifos. -/
theorem FifoRuntime.Sound.setInherited {inherited : Table Nat (Finset Nat)} (hs : s.Sound)
    (hb : processRuntime.Reachable { s.runtime with inherited := inherited }) :
    FifoRuntime.Sound { s with runtime := { s.runtime with inherited := inherited } } where
  base := hb
  pipe := hs.pipe
  known := hs.known
  reader := hs.reader
  present := hs.present
  execing := fun hex => by
    have h := hs.execing hex
    exact ⟨h.lockable, h.unanswered, h.named, h.sent, h.writer⟩
  passed := hs.passed
  bytes := hs.bytes
  released := hs.released
  sent := hs.sent
  answered := hs.answered

theorem FifoRuntime.firstExec_eq_some (h : s.firstExec k = some t) : ∃ u,
    s.firstStep k (some .executing) (fun p => some (p.leaveReader ())) .executed = some u ∧
      processRuntime.step u.runtime (.exec k) = some t.runtime ∧
      t = { u with runtime := { u.runtime with inherited := u.runtime.inherited.erase k } } := by
  obtain ⟨u, hu, h⟩ := Option.bind_eq_some_iff.1 h
  obtain ⟨r, hr, rfl⟩ := Option.map_eq_some_iff.1 h
  have hr' : processRuntime.step u.runtime (.exec k) = some r := hr
  rw [Runtime.exec, Option.ite_none_right_eq_some] at hr
  obtain ⟨-, ⟨⟩⟩ := hr
  exact ⟨u, hu, hr', rfl⟩

theorem FifoRuntime.Sound.firstExec (hs : s.Sound) (h : s.firstExec k = some t) : t.Sound := by
  obtain ⟨u, hu, hexec, ht⟩ := FifoRuntime.firstExec_eq_some h
  have hsu : u.Sound := by
    obtain ⟨⟨hf, hr, hn, hd⟩, p, hp, rfl⟩ := FifoRuntime.firstStep_eq_some.1 hu
    obtain ⟨c, hf⟩ := Option.isSome_iff_exists.1 hf
    cases hp
    have hreaders : ((s.pipes k).leaveReader ()).readers = (s.pipes k).readers.leave () :=
      Fifo.flush_readers _
    apply hs.setFirst hf hr hn ((hs.pipe k).leaveReader ())
    case hself =>
      intro e he
      rw [hreaders] at he
      exact absurd rfl (Table.of_lookup_erase he).1
    case hthere => exact fun hne => absurd rfl hne
    case hw => exact Fifo.flush_writers _
    case hb => exact Fifo.flush_bytes_le _
    case hg => exact fun _ => hs.released hd rfl
  have hreach : processRuntime.Reachable t.runtime := .step hsu.base trivial hexec
  rw [ht] at hreach ⊢
  exact hsu.setInherited hreach

/-- The cases of `do_start_container` with the mutex. -/
theorem FifoRuntime.startContainer_eq_some (h : s.startContainer i c = some t) :
    s.runtime.lockable ∧ s.execing = none ∧ i ∉ s.answers ∧ i ∉ s.sent ∧
      (c ∉ s.runtime.containers ∧ t = s.answer i c (some (.nix .EINVAL)) ∨
        c ∈ s.runtime.containers ∧ s.runtime.fifos.lookup c = none ∧
          t = s.answer i c (some (.nix .ENOENT)) ∨
        c ∈ s.runtime.containers ∧ ∃ k, s.runtime.fifos.lookup c = some k ∧
          t = { s.setPipe k ((s.pipes k).comeWriter i) with
            execing := some ⟨i, c, k, .opening⟩ }) := by
  rw [FifoRuntime.startContainer, Option.ite_none_right_eq_some] at h
  obtain ⟨⟨hl, hex, hi, hsent⟩, h⟩ := h
  refine ⟨hl, hex, hi, hsent, ?_⟩
  split at h
  · rename_i hc
    cases h
    exact .inl ⟨hc, rfl⟩
  · rename_i hc
    rw [not_not] at hc
    split at h
    · rename_i hnone
      cases h
      exact .inr (.inl ⟨hc, hnone, rfl⟩)
    · rename_i k hk
      cases h
      exact .inr (.inr ⟨hc, k, hk, rfl⟩)

theorem FifoRuntime.Sound.startContainer (hs : s.Sound) (h : s.startContainer i c = some t) :
    t.Sound := by
  obtain ⟨hl, hex, hi, hsent, ⟨-, rfl⟩ | ⟨-, -, rfl⟩ | ⟨-, k, hk, rfl⟩⟩ :=
    FifoRuntime.startContainer_eq_some h
  · exact hs.answer _ nofun
  · exact hs.answer _ nofun
  · have hnamed := Runtime.FifosNamed.of_reachable hs.base
    apply hs.setExec ((hs.pipe k).comeWriter i)
    case hr => rfl
    case hex =>
      rintro _ ⟨⟩
      refine ⟨hl, hi, fun c' hf => hnamed.named hk hf, Table.notMem_iff.1 hsent, ?_⟩
      dsimp only
      rw [FifoRuntime.setPipe_self]
      exact ⟨_, Finmap.lookup_insert _, trivial⟩
    case hkeep => exact fun _ _ h => h
    case hnew => exact fun _ _ _ h => .inl h
    case hpassed => exact fun _ => .inl (Side.ne_empty (Finmap.lookup_insert _))
    case hbytes => exact hs.bytes

theorem FifoRuntime.execOpened_eq_some (h : s.execOpened = some t) : ∃ i c k p,
    s.execing = some ⟨i, c, k, .opening⟩ ∧ (s.pipes k).enterWriter i = some p ∧
      t = { s.setPipe k p with execing := some ⟨i, c, k, .opened⟩ } := by
  rw [FifoRuntime.execOpened] at h
  split at h
  · rename_i i c k hex
    obtain ⟨p, hp, rfl⟩ := Option.map_eq_some_iff.1 h
    exact ⟨i, c, k, p, hex, hp, rfl⟩
  · cases h

theorem FifoRuntime.Sound.execOpened (hs : s.Sound) (h : s.execOpened = some t) : t.Sound := by
  obtain ⟨i, c, k, p, hex, hp, rfl⟩ := FifoRuntime.execOpened_eq_some h
  have hx := hs.execing hex
  have hp' := (hs.pipe k).enterWriter hp
  obtain ⟨-, rfl⟩ := Fifo.enterWriter_eq_some.1 hp
  apply hs.setExec hp'
  case hr => rfl
  case hex =>
    rintro _ ⟨⟩
    refine ⟨hx.lockable, hx.unanswered, hx.named, hx.sent, ?_⟩
    dsimp only
    rw [FifoRuntime.setPipe_self]
    exact ⟨_, Finmap.lookup_insert _, trivial⟩
  case hkeep => exact fun _ _ h => h
  case hnew => exact fun _ _ _ h => .inl h
  case hpassed => exact fun _ => .inl (Side.ne_empty (Finmap.lookup_insert _))
  case hbytes => exact hs.bytes

/-- The two cases of the `write`. -/
theorem FifoRuntime.execWrite_eq_some (h : s.execWrite = some t) : ∃ i c k,
    s.execing = some ⟨i, c, k, .opened⟩ ∧
      ((∃ p, (s.pipes k).write = some p ∧ t = { s.setPipe k p with
          execing := some ⟨i, c, k, .written⟩
          sent := s.sent.insert i (c, k) }) ∨
        t = s.answer i c (some (.nix .EPIPE))) := by
  rw [FifoRuntime.execWrite] at h
  split at h
  · rename_i i c k hex
    refine ⟨i, c, k, hex, ?_⟩
    split at h
    · rename_i p hp
      cases h
      exact .inl ⟨p, hp, rfl⟩
    · cases h
      exact .inr rfl
  · cases h

theorem FifoRuntime.Sound.execWrite (hs : s.Sound) (h : s.execWrite = some t) : t.Sound := by
  obtain ⟨i, c, k, hex, ⟨p, hp, rfl⟩ | rfl⟩ := FifoRuntime.execWrite_eq_some h
  · have hx := hs.execing hex
    have hunsent : s.sent.lookup i = none := hx.sent
    have hp' := (hs.pipe k).write hp
    obtain ⟨hne, rfl⟩ := Fifo.write_eq_some.1 hp
    -- whoever has the fifo open for reading is the process that came to it
    have hcame : s.runtime.firstOf k = some c ∧ ∃ phase, s.firsts.lookup k = some phase := by
      obtain ⟨u, e, he⟩ := Side.exists_lookup hne
      obtain ⟨phase, ⟨-, hl⟩, -⟩ := hs.reader he
      obtain ⟨⟨c', hf⟩, -⟩ := hs.known hl
      have hc : c' = c := hx.named c' hf
      exact ⟨hc ▸ hf, phase, hl⟩
    have hdone : ∃ j c', (s.sent.insert i (c, k)).lookup j = some (c', k) :=
      ⟨i, c, Finmap.lookup_insert _⟩
    apply hs.setExec hp'
    case hr => rfl
    case hex =>
      rintro _ ⟨⟩
      refine ⟨hx.lockable, hx.unanswered, hx.named, Finmap.lookup_insert _, ?_⟩
      obtain ⟨e, he, hh⟩ := hx.writer
      dsimp only
      rw [FifoRuntime.setPipe_self]
      refine ⟨e, he, ?_⟩
      cases e with
      | opening => exact hh.elim
      | held => trivial
    case hkeep =>
      intro j x hj
      rw [Table.lookup_insert, if_neg]
      · exact hj
      · rintro rfl
        cases hunsent.symm.trans hj
    case hnew =>
      intro j c' k' hj
      rcases Table.of_lookup_insert hj with ⟨-, hj⟩ | ⟨-, hj⟩
      · cases hj
        exact .inr hcame
      · exact .inl hj
    case hpassed => exact fun _ => .inr hdone
    case hbytes => exact fun _ => hdone
  · exact hs.answer _ nofun

theorem FifoRuntime.execReturn_eq_some {refused : Option Errno}
    (h : s.execReturn refused = some t) : ∃ i c k, s.execing = some ⟨i, c, k, .written⟩ ∧
      t = (s.setPipe k ((s.pipes k).leaveWriter i)).answer i c (refused.map .nix) := by
  rw [FifoRuntime.execReturn] at h
  split at h
  · rename_i i c k hex
    cases h
    exact ⟨i, c, k, hex, rfl⟩
  · cases h

theorem FifoRuntime.Sound.execReturn {refused : Option Errno} (hs : s.Sound)
    (h : s.execReturn refused = some t) : t.Sound := by
  obtain ⟨i, c, k, hex, rfl⟩ := FifoRuntime.execReturn_eq_some h
  have hsent : s.sent.lookup i = some (c, k) := (hs.execing hex).sent
  have hleft : FifoRuntime.Sound { s.setPipe k ((s.pipes k).leaveWriter i) with
      execing := none, sent := s.sent } := by
    apply hs.setExec ((hs.pipe k).leaveWriter i)
    case hr => rw [Fifo.leaveWriter, Fifo.flush_readers]
    case hex => exact fun _ h => by cases h
    case hkeep => exact fun _ _ h => h
    case hnew => exact fun _ _ _ h => .inl h
    case hpassed => exact fun _ => .inr ⟨i, c, hsent⟩
    case hbytes => exact fun _ => ⟨i, c, hsent⟩
  exact hleft.answer _ fun _ => ⟨k, hsent⟩

/-- A panic with the mutex is one that the agent also has otherwise. -/
theorem Runtime.exists_poison (hl : r.lockable) :
    ∃ c, processRuntime.step r (.removeContainer c true) = some { r with poisoned := true } := by
  obtain ⟨c, hc⟩ := Infinite.exists_notMem_finset r.containers.keys
  have hc' : c ∉ r.containers := fun h => hc (Finmap.mem_keys.2 h)
  refine ⟨c, ?_⟩
  change r.removeContainer c true = _
  rw [Runtime.removeContainer, if_pos hl, if_pos hc']

theorem FifoRuntime.execUnwind_eq_some (h : s.execUnwind = some t) : ∃ i c k,
    s.execing = some ⟨i, c, k, .written⟩ ∧
      t = { s with runtime := { s.runtime with poisoned := true }, execing := none } := by
  rw [FifoRuntime.execUnwind] at h
  split at h
  · rename_i i c k hex
    cases h
    exact ⟨i, c, k, hex, rfl⟩
  · cases h

theorem FifoRuntime.Sound.execUnwind (hs : s.Sound) (h : s.execUnwind = some t) : t.Sound := by
  obtain ⟨i, c, k, hex, rfl⟩ := FifoRuntime.execUnwind_eq_some h
  obtain ⟨x, hx⟩ := Runtime.exists_poison (hs.execing hex).lockable
  exact {
    base := .step hs.base trivial hx
    pipe := hs.pipe
    known := hs.known
    reader := hs.reader
    present := hs.present
    execing := fun h => by cases h
    passed := hs.passed
    bytes := hs.bytes
    released := hs.released
    sent := hs.sent
    answered := hs.answered }

theorem FifoRuntime.Sound.step (hs : s.Sound) (h : s.step a = some t) : t.Sound := by
  cases a with
  | base a => exact hs.base_step h
  | startContainer i c => exact hs.startContainer h
  | execOpened => exact hs.execOpened h
  | execWrite => exact hs.execWrite h
  | execReturn refused => exact hs.execReturn h
  | execUnwind => exact hs.execUnwind h
  | firstOpen k => exact hs.firstOpen h
  | firstOpened k => exact hs.firstOpened h
  | firstRead k => exact hs.firstRead h
  | firstExec k => exact hs.firstExec h

theorem FifoRuntime.Sound.init (h : fifoRuntime.init s) : s.Sound := by
  obtain ⟨hb, hs⟩ := h
  rw [hs]
  exact {
    base := .init hb
    pipe := fun _ => Fifo.empty_sound
    known := fun h => by cases h
    reader := fun h => by cases h
    present := fun h => by cases h.2
    execing := fun h => by cases h
    passed := fun h => by cases h
    bytes := fun h => by cases h
    released := fun h => by cases h
    sent := fun h => by cases h
    answered := fun h => by cases h }

theorem FifoRuntime.Sound.of_reachable (h : fifoRuntime.Reachable s) : s.Sound := by
  apply h.invariant
  · exact fun s hi => .init hi
  · exact fun s a t hs _ hst => hs.step hst

/-- No `CreateSandbox` removes the directory of the container. -/
def FifoAction.keepsFifo (c : String) : FifoAction → Prop
  | .base a => Runtime.FifoLeft c a
  | _ => True

/-- The first processes of containers wait for the client's word at their fifos. -/
structure FifoRuntime.Gated (s : FifoRuntime) : Prop where
  /-- A container has one first process for each time that its directory is removed. -/
  once : ∀ c, fifoRuntime.Reach (fun _ a => a.keepsFifo c) s →
    ∀ k j, s.runtime.firstOf k = some c → s.runtime.firstOf j = some c → k = j
  /-- What is between the `read` and the program is passed after a byte for this very process. -/
  released : ∀ k c phase, s.runtime.firstOf k = some c → s.firsts.lookup k = some phase →
    phase.released = true → ∃ i, s.sent.lookup i = some (c, k)
  /-- Only one that has come to its fifo gets a byte, and of a call for its container. -/
  came : ∀ i c k, s.sent.lookup i = some (c, k) →
    s.runtime.firstOf k = some c ∧ ∃ phase, s.firsts.lookup k = some phase
  /-- A call ends well only after its byte. -/
  answered : ∀ i c, s.answers.lookup i = some (c, none) → ∃ k, s.sent.lookup i = some (c, k)

/-- What a step does to the agent, the agent may also do without its fifos. -/
theorem FifoRuntime.Sound.runtime_step (hs : s.Sound) (h : fifoRuntime.step s a = some t) :
    t.runtime = s.runtime ∨ ∃ b, processRuntime.step s.runtime b = some t.runtime ∧
      ∀ c, a.keepsFifo c → Runtime.FifoLeft c b := by
  have hfirst {u k due g phase} (h : s.firstStep k due g phase = some u) :
      u.runtime = s.runtime := by
    obtain ⟨-, p, -, rfl⟩ := FifoRuntime.firstStep_eq_some.1 h
    rfl
  cases a with
  | base b =>
    obtain ⟨-, -, r, hr, rfl⟩ := FifoRuntime.base_eq_some h
    exact .inr ⟨b, hr, fun _ hb => hb⟩
  | startContainer i c =>
    obtain ⟨-, -, -, -, ⟨-, rfl⟩ | ⟨-, -, rfl⟩ | ⟨-, k, -, rfl⟩⟩ :=
      FifoRuntime.startContainer_eq_some h
    · exact .inl rfl
    · exact .inl rfl
    · exact .inl rfl
  | execOpened =>
    obtain ⟨i, c, k, p, -, -, rfl⟩ := FifoRuntime.execOpened_eq_some h
    exact .inl rfl
  | execWrite =>
    obtain ⟨i, c, k, -, ⟨p, -, rfl⟩ | rfl⟩ := FifoRuntime.execWrite_eq_some h
    · exact .inl rfl
    · exact .inl rfl
  | execReturn refused =>
    obtain ⟨i, c, k, -, rfl⟩ := FifoRuntime.execReturn_eq_some h
    exact .inl rfl
  | execUnwind =>
    obtain ⟨i, c, k, hex, rfl⟩ := FifoRuntime.execUnwind_eq_some h
    obtain ⟨x, hx⟩ := Runtime.exists_poison (hs.execing hex).lockable
    exact .inr ⟨_, hx, fun _ _ => trivial⟩
  | firstOpen k =>
    change s.firstOpen k = some t at h
    exact .inl (hfirst h)
  | firstOpened k =>
    change s.firstOpened k = some t at h
    exact .inl (hfirst h)
  | firstRead k =>
    change s.firstRead k = some t at h
    exact .inl (hfirst h)
  | firstExec k =>
    obtain ⟨u, hu, hexec, -⟩ := FifoRuntime.firstExec_eq_some h
    rw [hfirst hu] at hexec
    exact .inr ⟨_, hexec, fun _ _ => trivial⟩

theorem FifoRuntime.reach_fifoLeft (h : fifoRuntime.Reach (fun _ a => a.keepsFifo c) s) :
    processRuntime.Reach (fun _ a => Runtime.FifoLeft c a) s.runtime := by
  induction h with
  | init h0 => exact .init h0.1
  | step h hc hst ih =>
    rcases (FifoRuntime.Sound.of_reachable h.reachable).runtime_step hst with hr | ⟨b, hb, hl⟩
    · rw [hr]
      exact ih
    · exact .step ih (hl c hc) hb

theorem FifoRuntime.gated (h : fifoRuntime.Reachable s) : s.Gated := by
  have hs := FifoRuntime.Sound.of_reachable h
  constructor
  case once =>
    intro c hc k j hk hj
    exact (Runtime.first_once (FifoRuntime.reach_fifoLeft hc)).once hk hj
  case released =>
    intro k c phase hk hl hph
    obtain ⟨i, c', hi⟩ := hs.released hl hph
    cases hk.symm.trans (hs.sent hi).1
    exact ⟨i, hi⟩
  case came => exact fun i c k hi => hs.sent hi
  case answered => exact fun i c hi => hs.answered hi

/-- A call lets the first process of the container go. -/
def startRun (call child : Nat) (c : String) : List FifoAction :=
  [.startContainer call c, .firstOpen child, .execOpened, .firstOpened child, .execWrite,
    .execReturn none, .firstRead child, .firstExec child]

def oneStarted : List FifoAction := firstCreate.map .base ++ startRun 0 0 "c1"

/-- Its directory is removed, and the container is created and started once more. -/
def startedTwice : List FifoAction :=
  oneStarted ++ .base (.createSandbox ["c1"]) :: (createRun "c1" [5, 6, 7, 8, 9, 10, 0, 11, 12, 13,
    14, 15, 11, 0, 0, 0, 0, 0, 0, 0, 0, 5, 8, 0]).map .base ++ startRun 1 1 "c1"

/-- The agent after its start, with no fifo. -/
def FifoRuntime.boot : FifoRuntime := ⟨.boot ∅, fun _ => .empty, ∅, none, ∅, ∅⟩

theorem FifoRuntime.boot_init : fifoRuntime.init .boot := ⟨Runtime.boot_init, rfl⟩

theorem FifoRuntime.gated_startedTwice : ∃ s : FifoRuntime,
    s.firsts.lookup 1 = some .executed ∧ s.Gated := by
  have hr : (fifoRuntime.run .boot startedTwice).map (fun s => s.firsts.lookup 1) =
      some (some .executed) := by
    decide +kernel
  obtain ⟨s, hs, hp⟩ := Option.map_eq_some_iff.1 hr
  exact ⟨s, hp, FifoRuntime.gated (System.reachable_of_run FifoRuntime.boot_init hs)⟩

end KataAgent
