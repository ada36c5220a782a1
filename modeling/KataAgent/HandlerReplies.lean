import KataAgent.ProcessHandlers
import KataAgent.ContainerStatus
import KataAgent.ContainerRemoval

namespace KataAgent
open Fallible Transition
set_option autoImplicit true

inductive ServerAction where
  | request (req : ServerRequest) (g : HandlerGuest)
  /-- What the other requests and the reaper make of the agent, whose mutex they let go. -/
  | rest (a : Agent) (inside : String → Inside)

/-- Only a call that waits gets to the end of its wait. -/
def ServerRequest.Begins (s : Server) : ServerRequest → Prop
  | .finishWait cid pid => (cid, pid) ∈ s.waiting
  | _ => True

instance : Decidable (ServerRequest.Begins s req) := by
  cases req <;> unfold ServerRequest.Begins <;> infer_instance

def Server.step (s : Server) : ServerAction → Option Server
  | .request req g => if req.Begins s then some (serve g req s).2 else none
  | .rest a inside =>
    some { s with toAgent := { a with poisoned := s.poisoned }, inside := inside }

/-- The handlers in any order, from an agent without containers. -/
def server : System Server ServerAction where
  init s := s.sandbox.containers = ∅ ∧ s.poisoned = false ∧ s.held = false ∧ s.waiting = []
  step := Server.step

/-- The next request gets the mutex. -/
abbrev Server.Free (s : Server) : Prop := serverMutex.Free s

/-- The handler ends with a reply and leaves the mutex as it was. -/
def Server.Serves (s : Server) (g : HandlerGuest) (req : ServerRequest) : Prop :=
  (serve g req s).1.Returns ∧ (serve g req s).2.Free

/-- The first line has a `PID` column, in which the others have a number if they get so far. -/
def ListsPids (out : String) : Prop :=
  ∃ header lines pidIndex, out.toList.splitOn '\n' = header :: lines ∧
    (splitWhitespace header).findIdx? (· = ['P', 'I', 'D']) = some pidIndex ∧
    ∀ line ∈ lines, ∀ field ∈ pidField pidIndex line, (parseI32 field).isSome

/-- Under the mutex, no `unwrap` of the handler fails, and no call of it waits for ever. -/
def Server.LetsGo (s : Server) (g : HandlerGuest) : ServerRequest → Prop
  | .removeContainer req => ∃ ctr, s.container req.containerId = some ctr ∧ ¬ g.DestroyWaits ctr ∧
      if req.timeout = 0 then ctr.ociState g.destroy.bundlePath ≠ .panic
      else g.destroy.Completes ctr ∧ g.remove.inTime = true
  | .execProcess cid _ process => process.isSome → g.processNew = none →
      ∀ ctr, s.container cid = some ctr → ctr.spec.linux.isSome → g.namespaces = none →
      ctr.ociState g.bundlePath ≠ .panic ∧
        ((ctr.ociState g.bundlePath).isOk → g.joinWaits = false)
  | .signalProcess cid eid signal => (s.findProcess cid eid true).isOk →
      1 ≤ signal.toNat ∧ signal.toNat ≤ 31
  | .finishWait cid pid => s.present cid ∧ ((s.inside cid).processes.lookup pid).isSome
  | .writeStdin cid eid _ => ∀ pid p, s.findProcess cid eid false = .ok (pid, p) →
      (p.termMaster.isSome ∨ p.parentStdin.isSome) ∧ g.write ≠ .never
  | .readStderr cid eid _ => ∀ pid p, s.findProcess cid eid false = .ok (pid, p) →
      p.termMaster.isSome ∨ p.parentStderr.isSome
  | .ttyWinResize cid eid _ _ => (s.findProcess cid eid false).isOk
  | .listProcesses cid format args => s.present cid ∧ (format = "table" →
      ∃ out, g.ps (if args = [] then ["-ef"] else args) = .printed out ∧ ListsPids out)
  | .updateContainer cid resources => ∃ ctr, s.container cid = some ctr ∧
      (resources.isSome → g.set = none → ctr.spec.linux.isSome)
  | .statsContainer cid => s.present cid ∧ Counted g.cgroup (s.inside cid).cgroupPaths
  | .waitProcess _ _ => True
  | .readStdout _ _ _ => True
  | .closeStdin _ _ => True

/-- What the handler reads from, without the mutex, has bytes or comes to its end. -/
def Server.ReadEnds (s : Server) (g : HandlerGuest) : ServerRequest → Prop
  | .readStdout cid eid _ => ∀ pid p, s.findProcess cid eid false = .ok (pid, p) →
      p.termMaster.isSome ∨ p.parentStdout.isSome → g.read ≠ .never
  | .readStderr cid eid _ => ∀ pid p, s.findProcess cid eid false = .ok (pid, p) →
      p.termMaster.isSome ∨ p.parentStderr.isSome → g.read ≠ .never
  | _ => True

/-- The handler comes to a reply. -/
def Server.Ready (s : Server) (g : HandlerGuest) (req : ServerRequest) : Prop :=
  s.LetsGo g req ∧ s.ReadEnds g req

/-- Every handler lets the mutex go. -/
def Answerable (s : Server) : ServerAction → Prop
  | .request req g => s.LetsGo g req
  | .rest _ _ => True

variable {s t : Server} {g : HandlerGuest} {cid eid : String} {α β : Type}

/-- A part of a handler that runs under the mutex. -/
abbrev KeepsFree (x : Act Server ε α) : Prop := Act.Preserves Server.Free x

theorem failsWith_snd (e : RpcStatus) (x : Act Server (Halt ErrorKind) α) (s : Server) :
    (failsWith e x s).2 = (x s).2 := by
  rw [failsWith]
  rcases x s with ⟨o, t⟩
  cases o with
  | ok a => rfl
  | err e =>
    cases e with
    | error e => rfl
    | never => rfl
  | panic => rfl

theorem failsWith_keepsFree {x : Act Server (Halt ErrorKind) α} (hx : KeepsFree x)
    (e : RpcStatus) : KeepsFree (failsWith e x) := by
  intro s hs
  rw [failsWith_snd]
  exact hx s hs

theorem failsWith_returns {x : Act Server (Halt ErrorKind) α} :
    (failsWith e x s).1.Returns ↔ (x s).1.Returns := by
  rw [failsWith]
  rcases x s with ⟨o, t⟩
  cases o with
  | ok a => exact iff_of_true (Outcome.returns_ok a) (Outcome.returns_ok a)
  | err e =>
    cases e with
    | error e => exact iff_of_true (Outcome.returns_error _) (Outcome.returns_error e)
    | never => exact iff_of_false Outcome.not_returns_never Outcome.not_returns_never
  | panic => exact iff_of_false Outcome.not_returns_panic Outcome.not_returns_panic

/-- What runs under the mutex lets it go exactly if it comes back. -/
theorem locked_free_iff {x : Act Server (Halt RpcStatus) α} (hx : KeepsFree x) (hs : s.Free) :
    (Server.locked x s).2.Free ↔ (x s).1.Returns := by
  constructor
  · intro h
    exact (Act.exclusive_free_iff hx hs).1 ⟨(Act.free_of_exclusive h).2, h⟩
  · intro h
    exact ((Act.exclusive_free_iff hx hs).2 h).2

theorem locked_failsWith_free_iff {x : Act Server (Halt ErrorKind) α} (hx : KeepsFree x)
    (hs : s.Free) (e : RpcStatus) :
    (Server.locked (failsWith e x) s).2.Free ↔ (x s).1.Returns :=
  (locked_free_iff (failsWith_keepsFree hx e) hs).trans failsWith_returns

/-- A handler none of whose calls waits. -/
theorem locked_returning_free_iff {x : Act Server RpcStatus α} (hx : KeepsFree x) (hs : s.Free) :
    (Server.locked x.returning s).2.Free ↔ (x s).1 ≠ .panic :=
  (locked_free_iff hx.returning hs).trans Act.returning_returns

theorem locked_failsWith_returning_free_iff {x : Act Server ErrorKind α} (hx : KeepsFree x)
    (hs : s.Free) (e : RpcStatus) :
    (Server.locked (failsWith e x.returning) s).2.Free ↔ (x s).1 ≠ .panic :=
  (locked_failsWith_free_iff hx.returning hs e).trans Act.returning_returns

theorem Server.findProcess_ne_panic : s.findProcess cid eid init ≠ .panic := by
  unfold Server.findProcess Outcome.ofOption
  split
  · split
    · split <;> nofun
    · split <;> nofun
  · nofun

/-- What follows `find_process` unwinds or not for the process that it finds. -/
theorem found_ne_panic {f : Int × ServedProcess → Act Server ErrorKind β} :
    ((do
      let found ← Act.read (Server.findProcess · cid eid init)
      let p ← Act.lift found
      f p) s).1 ≠ .panic ↔ ∀ p, s.findProcess cid eid init = .ok p → (f p s).1 ≠ .panic := by
  rw [Act.bind_ok (Act.read_apply _)]
  cases hf : s.findProcess cid eid init with
  | ok p =>
    rw [Act.bind_ok (Act.lift_apply _)]
    exact ⟨fun h q hq => by cases hq; exact h, fun h => h p rfl⟩
  | err e => exact ⟨fun _ => nofun, fun _ => nofun⟩
  | panic => exact absurd hf Server.findProcess_ne_panic

theorem found_keepsFree {f : Int × ServedProcess → Act Server ErrorKind β}
    (hf : ∀ p, KeepsFree (f p)) : KeepsFree (do
      let found ← Act.read (Server.findProcess · cid eid init)
      let p ← Act.lift found
      f p) := .bind (.read _) fun _ => .bind (.lift _) hf

theorem found_returns {f : Int × ServedProcess → Act Server (Halt ErrorKind) β} :
    ((do
      let found ← Act.read (Server.findProcess · cid eid init)
      let p ← Act.returning (Act.lift found)
      f p) s).1.Returns ↔ ∀ p, s.findProcess cid eid init = .ok p → (f p s).1.Returns := by
  rw [Act.bind_ok (Act.read_apply _)]
  cases hf : s.findProcess cid eid init with
  | ok p =>
    have hp : (Act.returning (Act.lift (.ok p)) : Act Server (Halt ErrorKind) _) s = (.ok p, s) :=
      rfl
    rw [Act.bind_ok hp]
    exact ⟨fun h q hq => by cases hq; exact h, fun h => h p rfl⟩
  | err e => exact iff_of_true (Outcome.returns_error e) nofun
  | panic => exact absurd hf Server.findProcess_ne_panic

theorem fromCInt_isSome {signal : UInt32} :
    (fromCInt signal).isSome ↔ 1 ≤ signal.toNat ∧ signal.toNat ≤ 31 := by
  unfold fromCInt
  have hlt := signal.toNat_lt
  have hint := BitVec.toInt_eq_toNat_cond signal.toBitVec
  have hnat : signal.toBitVec.toNat = signal.toNat := rfl
  rw [hnat] at hint
  dsimp only
  split
  · rename_i h
    simp only [Option.isSome_some, true_iff]
    split at hint <;> omega
  · rename_i h
    simp only [Option.isSome_none, Bool.false_eq_true, false_iff]
    split at hint <;> omega

theorem lift_pure_ne_panic {o : Outcome ε α} {r : β} (h : o ≠ .panic) :
    ((do
      let _ ← Act.lift o
      pure r : Act Server ε β) s).1 ≠ .panic := by
  cases o with
  | ok a => nofun
  | err e => nofun
  | panic => exact absurd rfl h

theorem signalProcess_ne_panic : (doSignalProcess cid eid signal g s).1 ≠ .panic ↔
    ((s.findProcess cid eid true).isOk → 1 ≤ signal.toNat ∧ signal.toNat ≤ 31) := by
  rw [doSignalProcess]
  rw [found_ne_panic, ← fromCInt_isSome, Outcome.isOk_iff]
  cases fromCInt signal with
  | none => exact ⟨fun h ⟨p, hp⟩ => absurd rfl (h p hp), fun h p hp => by cases h ⟨p, hp⟩⟩
  | some sig => exact ⟨fun _ _ => rfl, fun _ _ _ => lift_pure_ne_panic syscall_ne_panic⟩

theorem signalProcess_keepsFree : KeepsFree (doSignalProcess cid eid signal g) := by
  apply found_keepsFree
  intro p
  dsimp only
  split
  · exact .lift _
  · exact .bind (.lift _) fun _ => .pure _

theorem waitProcess_ne_panic : (doWaitProcess cid eid s).1 ≠ .panic :=
  found_ne_panic.2 fun _ _ => nofun

theorem waitProcess_keepsFree : KeepsFree (doWaitProcess cid eid) :=
  found_keepsFree fun _ => .bind (.modify fun _ h => h) fun _ => .pure _

theorem finishWait_ne_panic : (doFinishWait cid pid s).1 ≠ .panic ↔
    s.present cid ∧ ((s.inside cid).processes.lookup pid).isSome := by
  rw [doFinishWait]
  rw [Act.bind_ok (Act.modify_apply _), Act.bind_ok (Act.read_apply _)]
  have hpresent : Server.present { s with waiting := s.waiting.erase (cid, pid) } cid =
      s.present cid := rfl
  rw [id_eq, hpresent]
  by_cases hp : s.present cid
  · rw [if_pos hp, and_iff_right hp]
    dsimp only
    cases hl : (s.inside cid).processes.lookup pid with
    | none => exact ⟨fun h => absurd rfl h, nofun⟩
    | some p => exact ⟨fun _ => rfl, fun _ => nofun⟩
  · rw [if_neg hp]
    exact ⟨fun h => absurd rfl h, fun h => absurd h.1 hp⟩

theorem finishWait_keepsFree : KeepsFree (doFinishWait cid pid) := by
  refine .bind (.modify fun _ h => h) fun _ => .bind (.read _) fun s => ?_
  split
  · split
    · exact .lift _
    · exact .bind (.modify fun _ h => h) fun _ => .pure _
  · exact .lift _

theorem WriteResult.len_ends {w : WriteResult} :
    w.len data ≠ none ∧ w.len data ≠ some .panic ↔ w ≠ .never := by
  cases w with
  | wrote n => exact iff_of_true ⟨nofun, nofun⟩ nofun
  | again => exact iff_of_true ⟨nofun, nofun⟩ nofun
  | failed => exact iff_of_true ⟨nofun, nofun⟩ nofun
  | never => exact iff_of_false (fun h => h.1 rfl) fun h => h rfl

theorem writeStream_returns : (doWriteStream cid eid data g s).1.Returns ↔
    ∀ pid p, s.findProcess cid eid false = .ok (pid, p) →
      (p.termMaster.isSome ∨ p.parentStdin.isSome) ∧ g.write ≠ .never := by
  rw [doWriteStream]
  rw [found_returns, Prod.forall]
  refine forall_congr' fun pid => forall_congr' fun p => imp_congr_right fun _ => ?_
  dsimp only
  split
  · rename_i hnone
    rw [Bool.and_eq_true, Option.isNone_iff_eq_none, Option.isNone_iff_eq_none] at hnone
    rw [hnone.1, hnone.2]
    exact iff_of_false Outcome.not_returns_panic (by simp)
  · rename_i hsome
    have hfd : p.termMaster.isSome ∨ p.parentStdin.isSome := by
      cases hm : p.termMaster with
      | some fd => exact .inl rfl
      | none =>
        cases hi : p.parentStdin with
        | some fd => exact .inr rfl
        | none => exact absurd (by rw [hm, hi]; rfl) hsome
    have hlen : ((do
        let l ← Act.await (g.write.len data)
        pure (.len (UInt32.ofNat l)) : Act Server (Halt ErrorKind) Reply) s).1.Returns ↔
          ((Act.await (g.write.len data) : Act Server (Halt ErrorKind) Nat) s).1.Returns :=
      Act.bind_returns_iff fun _ _ => Outcome.returns_ok _
    rw [hlen, Act.await_returns, WriteResult.len_ends, and_iff_right hfd]

theorem writeStream_keepsFree : KeepsFree (doWriteStream cid eid data g) := by
  refine .bind (.read _) fun _ => .bind (Act.Preserves.lift _).returning fun p => ?_
  dsimp only
  split
  · exact .lift _
  · exact .bind (.await _) fun _ => .pure _

theorem pickStream_ne_panic : (pickStream cid eid stdout s).1 ≠ .panic ↔
    (stdout = false → ∀ pid p, s.findProcess cid eid false = .ok (pid, p) →
      p.termMaster.isSome ∨ p.parentStderr.isSome) := by
  rw [pickStream]
  rw [found_ne_panic, Prod.forall]
  cases stdout with
  | true =>
    refine ⟨fun _ h => (by cases h), fun _ pid p _ => ?_⟩
    dsimp only
    cases p.termMaster with
    | some fd => nofun
    | none => nofun
  | false =>
    rw [imp_iff_right rfl]
    refine forall_congr' fun pid => forall_congr' fun p => imp_congr_right fun _ => ?_
    dsimp only
    cases p.termMaster with
    | some fd => exact ⟨fun _ => .inl rfl, fun _ => nofun⟩
    | none =>
      cases p.parentStderr with
      | some fd => exact ⟨fun _ => .inr rfl, fun _ => nofun⟩
      | none => exact ⟨fun h => absurd rfl h, by simp⟩

theorem pickStream_keepsFree : KeepsFree (pickStream cid eid stdout) := by
  apply found_keepsFree
  intro p
  dsimp only
  split
  · exact .pure _
  · split
    · exact .pure _
    · split
      · exact .lift _
      · exact .pure _

theorem ReadResult.stream_ends {r : ReadResult} {len : UInt32} :
    r.stream len ≠ none ∧ r.stream len ≠ some .panic ↔ r ≠ .never := by
  cases r with
  | bytes bs =>
    apply iff_of_true _ nofun
    rw [ReadResult.stream]
    split
    · exact ⟨nofun, nofun⟩
    · exact ⟨nofun, nofun⟩
  | again => exact iff_of_true ⟨nofun, nofun⟩ nofun
  | failed e => exact iff_of_true ⟨nofun, nofun⟩ nofun
  | never => exact iff_of_false (fun h => h.1 rfl) fun h => h rfl

theorem readPicked_ends (len : UInt32) (fd : Option RawFd) :
    readPicked g len fd ≠ none ∧ readPicked g len fd ≠ some .panic ↔
      (fd.isSome → g.read ≠ .never) := by
  cases fd with
  | none => exact iff_of_true ⟨nofun, nofun⟩ nofun
  | some fd =>
    rw [imp_iff_right Option.isSome_some]
    exact ReadResult.stream_ends

/-- What comes after the mutex does not touch it. -/
theorem readStream_snd (e : RpcStatus) (cid eid : String) (len : UInt32) (stdout : Bool)
    (g : HandlerGuest) (s : Server) : (readStream e cid eid len stdout g s).2 =
      (Server.locked (failsWith e (pickStream cid eid stdout).returning) s).2 := by
  have hread (fd : Option RawFd) (t : Server) :
      (failsWith e (Act.await (readPicked g len fd)) t).2 = t := by
    rw [failsWith_snd]
    exact Act.Preserves.await (I := fun u => u = t) _ t rfl
  rw [readStream, Act.bind_apply]
  rcases Server.locked (failsWith e (pickStream cid eid stdout).returning) s with ⟨o, t⟩
  cases o with
  | ok fd => exact hread fd t
  | err e => rfl
  | panic => rfl

theorem readStream_free_iff (hs : s.Free) (e : RpcStatus) (len : UInt32) :
    (readStream e cid eid len stdout g s).2.Free ↔ (pickStream cid eid stdout s).1 ≠ .panic := by
  rw [readStream_snd]
  exact locked_failsWith_returning_free_iff pickStream_keepsFree hs e

theorem locked_failsWith_ok {x : Act Server ErrorKind α} (hs : s.Free) (h : x s = (.ok a, t))
    (e : RpcStatus) : Server.locked (failsWith e x.returning) s = (.ok a, t) := by
  unfold Server.locked Act.exclusive Act.guarded failsWith Act.returning
  rw [hs.1, hs.2, if_neg Bool.false_ne_true, if_neg Bool.false_ne_true, h]

theorem locked_failsWith_err {x : Act Server ErrorKind α} (hs : s.Free) (h : x s = (.err k, t))
    (e : RpcStatus) : Server.locked (failsWith e x.returning) s = (.err (.error e), t) := by
  unfold Server.locked Act.exclusive Act.guarded failsWith Act.returning
  rw [hs.1, hs.2, if_neg Bool.false_ne_true, if_neg Bool.false_ne_true, h]

/-- Something holds of the reads that come after the mutex. -/
theorem pickStream_picks {R : Prop} :
    (∀ fd, (pickStream cid eid stdout s).1 = .ok fd → fd.isSome → R) ↔
      ∀ pid p, s.findProcess cid eid false = .ok (pid, p) →
        p.termMaster.isSome ∨ (if stdout then p.parentStdout else p.parentStderr).isSome → R := by
  rw [pickStream, Act.bind_ok (Act.read_apply _)]
  cases hf : s.findProcess cid eid false with
  | err e => exact iff_of_true nofun nofun
  | panic => exact absurd hf Server.findProcess_ne_panic
  | ok found =>
    obtain ⟨pid, p⟩ := found
    rw [Act.bind_ok (Act.lift_apply _)]
    have hfound {Q : ServedProcess → Prop} : (∀ pid' p', (Outcome.ok (pid, p) :
        Outcome ErrorKind (Int × ServedProcess)) = .ok (pid', p') → Q p') ↔ Q p := by
      constructor
      · intro h
        exact h pid p rfl
      · intro h pid' p' he
        cases he
        exact h
    rw [hfound (Q := fun p => p.termMaster.isSome ∨ _ → R)]
    dsimp only
    cases p.termMaster with
    | some fd => exact ⟨fun h _ => h (some fd) rfl rfl, fun h _ _ _ => h (.inl rfl)⟩
    | none =>
      have hnone {o : Option RawFd} : (((none : Option RawFd).isSome : Prop) ∨ o.isSome → R) ↔
          (o.isSome → R) := by
        simp
      dsimp only
      cases stdout with
      | true =>
        rw [if_pos rfl, if_pos rfl, hnone]
        exact ⟨fun h => h _ rfl, fun h fd hfd => by cases hfd; exact h⟩
      | false =>
        rw [if_neg Bool.false_ne_true, if_neg Bool.false_ne_true, hnone]
        cases p.parentStderr with
        | none => exact iff_of_true nofun nofun
        | some fd => exact ⟨fun h => h _ rfl, fun h fd hfd => by cases hfd; exact h⟩

/-- A read under a free mutex comes to a reply where the descriptor that it picks is read to an
end. -/
theorem readStream_returns (hs : s.Free) (hp : (pickStream cid eid stdout s).1 ≠ .panic)
    (e : RpcStatus) (len : UInt32) : (readStream e cid eid len stdout g s).1.Returns ↔
      ∀ pid p, s.findProcess cid eid false = .ok (pid, p) →
        p.termMaster.isSome ∨ (if stdout then p.parentStdout else p.parentStderr).isSome →
          g.read ≠ .never := by
  rw [← pickStream_picks, readStream]
  rcases hr : pickStream cid eid stdout s with ⟨o, t⟩
  rw [hr] at hp
  cases o with
  | ok fd =>
    rw [Act.bind_ok (locked_failsWith_ok hs hr e), failsWith_returns, Act.await_returns,
      readPicked_ends]
    exact ⟨fun h fd' hfd => by cases hfd; exact h, fun h => h fd rfl⟩
  | err k =>
    rw [Act.bind_err (locked_failsWith_err hs hr e)]
    exact iff_of_true (Outcome.returns_error e) nofun
  | panic => exact absurd rfl hp

theorem closeStdin_ne_panic : (closeStdin cid eid s).1 ≠ .panic := by
  rw [closeStdin]
  rw [Act.bind_ok (Act.read_apply _)]
  cases s.findProcess cid eid false with
  | ok p => nofun
  | err e => nofun
  | panic => nofun

theorem closeStdin_keepsFree : KeepsFree (closeStdin cid eid) := by
  refine .bind (.read _) fun found => ?_
  split
  · exact .bind (.modify fun _ h => h) fun _ => .pure _
  · exact .lift _

theorem ttyWinResize_ne_panic : (ttyWinResize cid eid row column g s).1 ≠ .panic ↔
    (s.findProcess cid eid false).isOk := by
  rw [ttyWinResize]
  rw [Act.bind_ok (Act.read_apply _)]
  cases s.findProcess cid eid false with
  | err e => exact ⟨fun h => absurd rfl h, nofun⟩
  | panic => exact ⟨fun h => absurd rfl h, nofun⟩
  | ok p =>
    refine ⟨fun _ => rfl, fun _ => ?_⟩
    dsimp only
    split
    · nofun
    · split <;> nofun

theorem ttyWinResize_keepsFree : KeepsFree (ttyWinResize cid eid row column g) := by
  refine .bind (.read _) fun found => ?_
  split
  · split
    · exact .lift _
    · split
      · exact .lift _
      · exact .pure _
  · exact .lift _

theorem Server.container_isSome : (s.container cid).isSome = s.present cid := Option.isSome_map

theorem selectLines_ne_panic {pids : List Int} {pidIndex : Nat} {ls : List (List Char)} :
    selectLines pids pidIndex ls ≠ .panic ↔
      ∀ line ∈ ls, ∀ field ∈ pidField pidIndex line, (parseI32 field).isSome := by
  induction ls with
  | nil => exact ⟨nofun, fun _ => nofun⟩
  | cons line ls ih =>
    rw [selectLines]
    rw [List.forall_mem_cons]
    cases hf : pidField pidIndex line with
    | none => exact ih.trans (and_iff_right nofun).symm
    | some field =>
      dsimp only
      cases hp : parseI32 field with
      | none =>
        refine ⟨fun h => absurd rfl h, fun h => ?_⟩
        cases hp ▸ h.1 field rfl
      | some pid =>
        have hfield : ∀ f ∈ some field, (parseI32 f).isSome := fun f h => by
          cases h
          rw [hp]
          rfl
        rw [and_iff_right hfield, ← ih, Outcome.bind_ne_panic_iff]
        exact and_iff_left fun _ _ => nofun

theorem selectProcesses_ne_panic {pids : List Int} {out : String} :
    selectProcesses pids out ≠ .panic ↔ ListsPids out := by
  unfold selectProcesses ListsPids
  cases out.toList.splitOn '\n' with
  | nil =>
    refine ⟨fun h => absurd rfl h, ?_⟩
    rintro ⟨header, ls, pidIndex, h, -⟩
    cases h
  | cons header ls =>
    dsimp only
    cases hi : (splitWhitespace header).findIdx? (· = ['P', 'I', 'D']) with
    | none =>
      refine ⟨fun h => absurd rfl h, ?_⟩
      rintro ⟨header', ls', pidIndex, h, hp, -⟩
      cases h
      cases hi.symm.trans hp
    | some pidIndex =>
      rw [Outcome.bind_ne_panic_iff, selectLines_ne_panic]
      constructor
      · exact fun h => ⟨header, ls, pidIndex, rfl, hi, h.1⟩
      · rintro ⟨header', ls', pidIndex', h, hp, hall⟩
        cases h
        cases hi.symm.trans hp
        exact ⟨hall, fun _ _ => nofun⟩

theorem listProcesses_returns {format : String} {args : List String} :
    (listProcesses cid format args g s).1.Returns ↔ s.present cid ∧ (format = "table" →
      ∃ out, g.ps (if args = [] then ["-ef"] else args) = .printed out ∧ ListsPids out) := by
  rw [listProcesses]
  rw [Act.bind_ok (Act.read_apply _), ← Server.container_isSome]
  cases s.container cid with
  | none => exact iff_of_false Outcome.not_returns_panic nofun
  | some ctr =>
    rw [and_iff_right Option.isSome_some]
    dsimp only
    by_cases hj : format = "json"
    · rw [if_pos hj, hj]
      exact iff_of_true (Outcome.returns_ok _) fun h => absurd h (by decide)
    by_cases ht : format = "table"
    · rw [if_neg hj, if_neg (not_not.2 ht), imp_iff_right ht]
      have hunread {r : PsResult} (hr : ∀ out, r ≠ .printed out) :
          ¬ ∃ out, r = .printed out ∧ ListsPids out := fun ⟨out, h, _⟩ => hr out h
      cases g.ps (if args = [] then ["-ef"] else args) with
      | printed out =>
        refine Act.returning_returns.trans (selectProcesses_ne_panic.trans ?_)
        constructor
        · intro h
          exact ⟨out, rfl, h⟩
        · rintro ⟨out', h, hl⟩
          cases h
          exact hl
      | notUnicode => exact iff_of_false Outcome.not_returns_panic (hunread nofun)
      | failed => exact iff_of_false Outcome.not_returns_panic (hunread nofun)
      | never => exact iff_of_false Outcome.not_returns_never (hunread nofun)
    · rw [if_neg hj, if_pos ht]
      exact iff_of_true (Outcome.returns_error _) fun h => absurd h ht

theorem listProcesses_keepsFree {format : String} {args : List String} :
    KeepsFree (listProcesses cid format args g) := by
  refine .bind (.read _) fun found => ?_
  split
  · exact .lift _
  · split
    · exact .pure _
    · split
      · exact .lift _
      · split
        · exact (Act.Preserves.lift _).returning
        · exact .lift _
        · exact .lift _
        · exact .lift _

theorem updateContainer_ne_panic {resources : Option LinuxResources} :
    (updateContainer cid resources g s).1 ≠ .panic ↔ ∃ ctr, s.container cid = some ctr ∧
      (resources.isSome → g.set = none → ctr.spec.linux.isSome) := by
  rw [updateContainer]
  rw [Act.bind_ok (Act.read_apply _)]
  cases s.container cid with
  | none =>
    refine ⟨fun h => absurd rfl h, ?_⟩
    rintro ⟨ctr, h, -⟩
    cases h
  | some ctr =>
    have hex {P : LinuxContainer → Prop} : (∃ c, some ctr = some c ∧ P c) ↔ P ctr :=
      ⟨fun ⟨c, hc, h⟩ => Option.some.inj hc ▸ h, fun h => ⟨ctr, rfl, h⟩⟩
    rw [hex]
    dsimp only
    cases resources with
    | none => exact ⟨fun _ => nofun, fun _ => nofun⟩
    | some r =>
      cases g.set with
      | some e => exact ⟨fun _ _ => nofun, fun _ => nofun⟩
      | none =>
        cases ctr.spec.linux with
        | none => exact ⟨fun h => absurd rfl h, fun h => by cases h rfl rfl⟩
        | some linux => exact ⟨fun _ _ _ => rfl, fun _ => nofun⟩

theorem updateContainer_keepsFree {resources : Option LinuxResources} :
    KeepsFree (updateContainer cid resources g) := by
  refine .bind (.read _) fun found => ?_
  split
  · exact .lift _
  · split
    · exact .pure _
    · exact .lift _
    · exact .lift _
    · exact .bind (.modify fun _ h => h) fun _ => .pure _

theorem statsContainer_ne_panic : (statsContainer cid g s).1 ≠ .panic ↔
    s.present cid ∧ Counted g.cgroup (s.inside cid).cgroupPaths := by
  rw [statsContainer]
  rw [Act.bind_ok (Act.read_apply _), ← Server.container_isSome]
  cases s.container cid with
  | none => exact ⟨fun h => absurd rfl h, nofun⟩
  | some ctr =>
    rw [and_iff_right Option.isSome_some, ← managerStats_ne_panic]
    dsimp only
    rw [Act.bind_ok (Act.read_apply _)]
    cases managerStats g.cgroup (s.inside cid).cgroupPaths with
    | ok r => exact ⟨fun _ => nofun, fun _ => nofun⟩
    | err e => exact ⟨fun _ => nofun, fun _ => nofun⟩
    | panic => exact ⟨fun h => absurd rfl h, fun h => absurd rfl h⟩

theorem statsContainer_keepsFree : KeepsFree (statsContainer cid g) := by
  refine .bind (.read _) fun found => ?_
  split
  · exact .lift _
  · refine .bind (.read _) fun paths => ?_
    split
    · exact .pure _
    · exact .lift _
    · exact .lift _

section
variable {j : Jail} {point : HookPoint} {st : OCIState} {child : Int}

theorem killAll_safe (kill : Int → Option Errno) (pids : List Int) :
    Act.Safe (killAll kill pids) := by
  induction pids with
  | nil => exact .pure _
  | cons pid pids ih => exact .bind (.lift syscall_ne_panic) fun _ => ih

theorem runHooks_safe (hg : Nat → HookGuest) (hooks : List Hook) :
    Act.Safe (runHooks point st child hg hooks) := by
  induction hooks generalizing hg with
  | nil => exact .pure _
  | cons h hooks ih =>
    refine .bind (.bind (.lift Outcome.ofFault_ne_panic) fun _ => ?_) fun _ => ih _
    exact .bind (.modify _) fun _ => .lift Outcome.ofFault_ne_panic

theorem Jail.destroy_ne_panic {g : DestroyGuest} :
    (Jail.destroy g j).1 ≠ .panic ↔ j.ctr.ociState g.bundlePath ≠ .panic := by
  refine (Act.bind_safe_ne_panic fun _ => .modify _).trans ?_
  rw [stopAll]
  rw [Act.bind_ok (Act.read_apply _)]
  apply Act.bind_safe_ne_panic
  intro st
  exact .bind (killAll_safe _ _) fun _ => runHooks_safe _ _

theorem killAll_of {kill : Int → Option Errno} {pids : List Int}
    (h : ∀ pid ∈ pids, kill pid = none) : killAll kill pids j = (.ok (), j) := by
  induction pids with
  | nil => rfl
  | cons pid pids ih =>
    obtain ⟨hpid, hpids⟩ := List.forall_mem_cons.1 h
    have hkill : (Act.lift (syscall (kill pid)) : Act Jail ErrorKind Unit) j = (.ok (), j) := by
      rw [hpid]
      rfl
    exact (Act.bind_ok hkill).trans (ih hpids)

theorem runHooks_of {hg : Nat → HookGuest} {hooks : List Hook}
    (h : ∀ n < hooks.length, (hg n).refused = none ∧ (hg n).failed = none) :
    runHooks point st child hg hooks j = (.ok (), { j with
      hooksRun := j.hooksRun ++ hooks.map fun hk => ⟨point, hk, st, child⟩ }) := by
  induction hooks generalizing hg j with
  | nil => simp [runHooks]
  | cons hk hooks ih =>
    obtain ⟨hr, hf⟩ := h 0 (Nat.zero_lt_succ _)
    have hrest : ∀ n < hooks.length, (hg (n + 1)).refused = none ∧ (hg (n + 1)).failed = none :=
      fun n hn => h (n + 1) (Nat.succ_lt_succ hn)
    have hrun : executeHookFor (hg 0) ⟨point, hk, st, child⟩ j =
        (.ok (), { j with hooksRun := j.hooksRun ++ [⟨point, hk, st, child⟩] }) := by
      rw [executeHookFor]
      rw [hr, hf]
      rfl
    refine (Act.bind_ok hrun).trans ((ih hrest).trans ?_)
    rw [List.map_cons, List.append_assoc, List.singleton_append]

theorem Jail.destroy_eq_ok {g : DestroyGuest} :
    (Jail.destroy g j).1 = .ok () ↔ g.Completes j.ctr := by
  constructor
  · intro h
    rcases Jail.destroy_cases (g := g) (j := j) rfl with ⟨ho, -⟩ | ⟨-, hc, -⟩
    · exact absurd h ho
    · exact hc
  · rintro ⟨hoci, hkill, hhooks⟩
    obtain ⟨st, hst⟩ := Outcome.isOk_iff.1 hoci
    obtain ⟨k, hstop⟩ : ∃ k, stopAll g j = (.ok (), k) := by
      rw [stopAll]
      rw [Act.bind_ok (Act.read_apply _), hst, Act.bind_ok (Act.lift_apply _),
        Act.bind_ok (killAll_of hkill)]
      exact ⟨_, runHooks_of hhooks⟩
    rw [Jail.destroy]
    rw [Act.bind_ok hstop]
    rfl

/-- A `start` for an exec unwinds only where it makes the state for the hooks. -/
theorem start_exec_ne_panic : (Jail.start g.start false j).1 ≠ .panic ↔
    (j.ctr.spec.linux.isSome → g.namespaces = none →
      j.ctr.ociState g.bundlePath ≠ .panic) := by
  have hjoin (st : OCIState) : Act.Safe (joinNamespaces g.start false st) := by
    refine .bind (.read _) fun ctr => .bind (.lift Outcome.ofFault_ne_panic) fun _ => ?_
    exact .bind (.pure _) fun _ => .lift syscall_ne_panic
  have hsettle : Act.Safe (settleStart g.start false) := by
    refine .bind (.modify _) fun _ => .bind (.pure _) fun _ => ?_
    exact .bind (.lift Outcome.ofFault_ne_panic) fun _ => .modify _
  refine (Act.bind_safe_ne_panic fun st => .bind (hjoin st) fun _ => hsettle).trans ?_
  have hprep : prepareStart g.start false j = (if j.ctr.spec.linux.isNone then
      Act.fail (.errorCode "no linux config") else do
        Act.lift (.ofFault g.namespaces)
        Act.lift (j.ctr.ociState g.bundlePath)) j := rfl
  rw [hprep]
  cases j.ctr.spec.linux with
  | none => exact ⟨fun _ => nofun, fun _ => nofun⟩
  | some linux =>
    cases g.namespaces with
    | some e => exact ⟨fun _ _ => nofun, fun _ => nofun⟩
    | none => exact ⟨fun h _ _ => h, fun h => h rfl rfl⟩

end

/-- A `start` for an exec gets to `join_namespaces` with the state that it makes for the hooks. -/
theorem prepareStart_exec_isOk {j : Jail} : (prepareStart g.start false j).1.isOk ↔
    j.ctr.spec.linux.isSome ∧ g.namespaces = none ∧ (j.ctr.ociState g.bundlePath).isOk := by
  have hprep : prepareStart g.start false j = (if j.ctr.spec.linux.isNone then
      Act.fail (.errorCode "no linux config") else do
        Act.lift (.ofFault g.namespaces)
        Act.lift (j.ctr.ociState g.bundlePath)) j := rfl
  rw [hprep]
  cases j.ctr.spec.linux with
  | none => exact iff_of_false Bool.false_ne_true fun h => Bool.false_ne_true h.1
  | some linux =>
    rw [and_iff_right Option.isSome_some]
    cases g.namespaces with
    | some e => exact iff_of_false Bool.false_ne_true nofun
    | none => exact (and_iff_right rfl).symm

theorem runExec_returns {ctr : LinuxContainer} : (runExec g cid eid ctr s).1.Returns ↔
    (ctr.spec.linux.isSome → g.namespaces = none → ctr.ociState g.bundlePath ≠ .panic ∧
      ((ctr.ociState g.bundlePath).isOk → g.joinWaits = false)) := by
  rw [runExec]
  have hprep := prepareStart_exec_isOk (g := g) (j := ⟨ctr, cid ∈ s.fifos, [], []⟩)
  by_cases hw : g.joinWaits = true ∧
      (prepareStart g.start false ⟨ctr, cid ∈ s.fifos, [], []⟩).1.isOk
  · rw [if_pos hw]
    obtain ⟨hl, hn, hoci⟩ := hprep.1 hw.2
    apply iff_of_false Outcome.not_returns_never
    intro h
    rw [(h hl hn).2 hoci] at hw
    cases hw.1
  · have hjoin (hl : ctr.spec.linux.isSome) (hn : g.namespaces = none)
        (hoci : (ctr.ociState g.bundlePath).isOk) : g.joinWaits = false :=
      Bool.eq_false_of_not_eq_true fun hj => hw ⟨hj, hprep.2 ⟨hl, hn, hoci⟩⟩
    have hstart := start_exec_ne_panic (g := g) (j := ⟨ctr, cid ∈ s.fifos, [], []⟩)
    have hsame : (ctr.spec.linux.isSome → g.namespaces = none →
        ctr.ociState g.bundlePath ≠ .panic ∧
          ((ctr.ociState g.bundlePath).isOk → g.joinWaits = false)) ↔
        (ctr.spec.linux.isSome → g.namespaces = none → ctr.ociState g.bundlePath ≠ .panic) :=
      ⟨fun h hl hn => (h hl hn).1, fun h hl hn => ⟨h hl hn, hjoin hl hn⟩⟩
    rw [if_neg hw, hsame, ← hstart, Jail.run_exec]
    rcases Jail.start g.start false ⟨ctr, cid ∈ s.fifos, [], []⟩ with ⟨o, k⟩
    cases o with
    | ok _ => exact iff_of_true (Outcome.returns_ok _) nofun
    | err e => exact iff_of_true (Outcome.returns_error e) nofun
    | panic => exact iff_of_false Outcome.not_returns_panic fun h => h rfl

theorem runExec_keepsFree (ctr : LinuxContainer) : KeepsFree (runExec g cid eid ctr) := by
  intro s hs
  rw [runExec]
  dsimp only
  split
  · exact hs
  · rcases Jail.run g.start ⟨none, none, none⟩ false ⟨ctr, cid ∈ s.fifos, [], []⟩ with ⟨o, k⟩
    cases o with
    | ok _ => exact hs
    | err e => exact hs
    | panic => exact hs

theorem execProcess_returns {process : Option OCIProcess} :
    (doExecProcess cid eid process g s).1.Returns ↔ (process.isSome → g.processNew = none →
      ∀ ctr, s.container cid = some ctr → ctr.spec.linux.isSome → g.namespaces = none →
      ctr.ociState g.bundlePath ≠ .panic ∧
        ((ctr.ociState g.bundlePath).isOk → g.joinWaits = false)) := by
  unfold doExecProcess
  cases process with
  | none => exact iff_of_true (Outcome.returns_error _) nofun
  | some p =>
    rw [imp_iff_right Option.isSome_some]
    dsimp only
    cases g.processNew with
    | some e => exact iff_of_true (Outcome.returns_error _) nofun
    | none =>
      have hnew : (Act.returning (Act.lift (syscall none)) : Act Server (Halt ErrorKind) Unit) s =
          (.ok (), s) := rfl
      rw [imp_iff_right rfl, Act.bind_ok hnew, Act.bind_ok (Act.read_apply _)]
      cases s.container cid with
      | none =>
        apply iff_of_true (Outcome.returns_error _)
        intro ctr hc
        cases hc
      | some ctr =>
        have hrun : ((do
            runExec g cid eid ctr
            pure .empty : Act Server (Halt ErrorKind) Reply) s).1.Returns ↔
              (runExec g cid eid ctr s).1.Returns :=
          Act.bind_returns_iff fun _ _ => Outcome.returns_ok _
        refine hrun.trans (runExec_returns.trans ⟨fun h c hc => ?_, fun h => h ctr rfl⟩)
        cases hc
        exact h

theorem execProcess_keepsFree {process : Option OCIProcess} :
    KeepsFree (doExecProcess cid eid process g) := by
  cases process with
  | none => exact .lift _
  | some p =>
    refine .bind (Act.Preserves.lift _).returning fun _ => .bind (.read _) fun found => ?_
    split
    · exact .lift _
    · exact .bind (runExec_keepsFree _) fun _ => .pure _

section
variable {a : Agent} {rg : RemoveGuest} {req : RemoveContainerRequest}

theorem locked_eq_guarded (x : Act Agent ErrorKind α) :
    locked x = Act.guarded Agent.poisoned (fun t => { t with poisoned := true }) x := by
  funext a
  unfold locked Act.guarded
  rcases x a with ⟨o, b⟩
  cases o with
  | ok v => rfl
  | err e => rfl
  | panic => rfl

theorem locked_answers {x : Act Agent ErrorKind α}
    (hx : Act.Preserves (fun a : Agent => a.poisoned = false) x) (ha : a.poisoned = false) :
    ((locked x a).1 ≠ .panic ∧ (locked x a).2.poisoned = false) ↔ (x a).1 ≠ .panic := by
  rw [locked_eq_guarded]
  exact Act.guarded_free_iff hx ha

theorem free_of_locked {x : Act Agent ErrorKind α} (h : (locked x a).2.poisoned = false) :
    a.poisoned = false ∧ (locked x a).1 ≠ .panic := by
  rw [locked_eq_guarded] at h ⊢
  exact Act.free_of_guarded Agent.poisoned (fun _ => rfl) h

theorem destroyContainer_ne_panic : (destroyContainer rg cid a).1 ≠ .panic ↔
    cid ∈ a.sandbox.containers ∧ rg.destroy ≠ .panic := by
  unfold destroyContainer
  rw [Act.bind_ok (Act.read_apply _), ← Finmap.lookup_isSome]
  cases a.sandbox.containers.lookup cid with
  | none => exact ⟨fun h => absurd rfl h, nofun⟩
  | some ctr =>
    rw [and_iff_right Option.isSome_some]
    exact Act.bind_safe_ne_panic fun _ => .modify _

theorem destroyContainer_keepsFree :
    Act.Preserves (fun a : Agent => a.poisoned = false) (destroyContainer rg cid) := by
  refine .bind (.read _) fun found => ?_
  split
  · exact .lift _
  · exact .bind (.lift _) fun _ => .modify fun _ h => h

theorem releaseContainer_keepsFree :
    Act.Preserves (fun a : Agent => a.poisoned = false) (releaseContainer rg cid) :=
  releaseContainer_preserves (fun _ _ _ h => h) (fun _ _ h => h) rg cid

/-- A thread that does not destroy the container in time unwinds under the mutex. -/
theorem destroyInTime_poisons (ha : a.poisoned = false)
    (h : ¬ (cid ∈ a.sandbox.containers ∧ rg.destroy = .ok () ∧ rg.inTime = true)) :
    ∃ b, destroyInTime rg cid a = (.err (.nix .ETIME), b) ∧ b.poisoned = true := by
  unfold destroyInTime
  by_cases hd : cid ∈ a.sandbox.containers ∧ rg.destroy = .ok ()
  · rw [locked_apply ha (destroyContainer_unwrap_ok hd.1 hd.2) nofun]
    have hlate : rg.inTime = false := by
      by_contra hi
      exact h ⟨hd.1, hd.2, Bool.eq_true_of_not_eq_false hi⟩
    exact ⟨_, if_neg (by simp [hlate]), rfl⟩
  · unfold locked
    rw [if_neg (by simp [ha]), destroyContainer_unwrap_fails hd]
    exact ⟨_, rfl, rfl⟩

theorem destroyInTime_free (h : (destroyInTime rg cid a).2.poisoned = false) :
    a.poisoned = false ∧ (destroyInTime rg cid a).1 ≠ .panic := by
  have hlock := free_of_locked (x := (destroyContainer rg cid).unwrap) (a := a)
  unfold destroyInTime at h ⊢
  rcases hr : locked (destroyContainer rg cid).unwrap a with ⟨o, b⟩
  rw [hr] at h hlock
  cases o with
  | ok _ =>
    cases hi : rg.inTime with
    | true =>
      rw [hi] at h
      exact ⟨(hlock h).1, nofun⟩
    | false =>
      rw [hi] at h
      cases h
  | err e => exact ⟨(hlock h).1, nofun⟩
  | panic => exact ⟨(hlock h).1, nofun⟩

theorem doRemoveContainer_free (h : (doRemoveContainer req rg a).2.poisoned = false) :
    a.poisoned = false ∧ (doRemoveContainer req rg a).1 ≠ .panic := by
  unfold doRemoveContainer at h ⊢
  split
  · rename_i ht
    rw [if_pos ht] at h
    exact free_of_locked h
  · rename_i ht
    rw [if_neg ht] at h
    have hd : (destroyInTime rg req.containerId a).2.poisoned = false → a.poisoned = false ∧
        (destroyInTime rg req.containerId a).1 ≠ .panic := destroyInTime_free
    rw [Act.bind_apply] at h ⊢
    rcases hr : destroyInTime rg req.containerId a with ⟨o, b⟩
    rw [hr] at h hd
    cases o with
    | ok _ =>
      obtain ⟨hb, hp⟩ := free_of_locked h
      exact ⟨(hd hb).1, hp⟩
    | err e => exact ⟨(hd h).1, nofun⟩
    | panic => exact hd h

theorem doRemoveContainer_servesAt (ha : a.poisoned = false) :
    ((doRemoveContainer req rg a).1 ≠ .panic ∧ (doRemoveContainer req rg a).2.poisoned = false) ↔
      req.containerId ∈ a.sandbox.containers ∧
        if req.timeout = 0 then rg.destroy ≠ .panic
        else rg.destroy = .ok () ∧ rg.inTime = true := by
  by_cases ht : req.timeout = 0
  · have hx : doRemoveContainer req rg a = locked (do
        destroyContainer rg req.containerId
        releaseContainer rg req.containerId) a := by
      unfold doRemoveContainer
      rw [if_pos ht]
    rw [hx, if_pos ht]
    refine (locked_answers (.bind destroyContainer_keepsFree fun _ => releaseContainer_keepsFree)
      ha).trans ?_
    refine Iff.trans ?_ destroyContainer_ne_panic
    exact Act.bind_safe_ne_panic fun _ => releaseContainer_safe _ _
  · rw [if_neg ht]
    by_cases h : req.containerId ∈ a.sandbox.containers ∧ rg.destroy = .ok () ∧ rg.inTime = true
    · have hready : req.Ready rg a := ⟨ha, h.1, h.2.1, .inr h.2.2⟩
      rw [hready.eq, locked_answers releaseContainer_keepsFree hready.free_stop]
      exact ⟨fun _ => h, fun _ => releaseContainer_safe _ _ _⟩
    · obtain ⟨b, hb, hp⟩ := destroyInTime_poisons ha h
      have hx : doRemoveContainer req rg a = (.err (.nix .ETIME), b) := by
        unfold doRemoveContainer
        rw [if_neg ht]
        exact Act.bind_err hb
      rw [hx]
      exact ⟨fun hf => absurd (hp.symm.trans hf.2) nofun, fun hk => absurd hk h⟩

end

theorem removeReply_returns {o : Outcome ErrorKind Unit} : (removeReply o).Returns ↔ o ≠ .panic := by
  cases o with
  | ok _ => exact iff_of_true (Outcome.returns_ok _) nofun
  | err e => exact iff_of_true (Outcome.returns_error e) nofun
  | panic => exact iff_of_false Outcome.not_returns_panic fun h => h rfl

theorem doRemove_held {req : RemoveContainerRequest} (h : s.held = true) :
    doRemove req g s = (req.waits, s) := by
  rw [doRemove, if_pos h]

theorem doRemove_waits {req : RemoveContainerRequest} (h : s.held = false)
    (hw : s.poisoned = false ∧ ∃ ctr ∈ s.container req.containerId, g.DestroyWaits ctr) :
    doRemove req g s = (req.waits, { s with held := true }) := by
  rw [doRemove, h, if_neg Bool.false_ne_true, if_pos hw]

/-- Where no hook is about to keep the mutex, a removal does what the agent's part of it does. -/
theorem doRemove_eq {req : RemoveContainerRequest} (h : s.held = false)
    (hw : ¬ (s.poisoned = false ∧ ∃ ctr ∈ s.container req.containerId, g.DestroyWaits ctr)) :
    doRemove req g s =
      (removeReply (doRemoveContainer req (s.removeGuest g req.containerId) s.toAgent).1,
        { s with toAgent :=
          (doRemoveContainer req (s.removeGuest g req.containerId) s.toAgent).2 }) := by
  rw [doRemove, h, if_neg Bool.false_ne_true, if_neg hw]

/-- A removal lets the mutex go only with a reply. -/
theorem doRemove_free {req : RemoveContainerRequest} (h : (doRemove req g s).2.Free) :
    s.Free ∧ (doRemove req g s).1.Returns := by
  cases hheld : s.held with
  | true =>
    rw [doRemove_held hheld] at h
    cases hheld.symm.trans h.2
  | false =>
    by_cases hw : s.poisoned = false ∧ ∃ ctr ∈ s.container req.containerId, g.DestroyWaits ctr
    · rw [doRemove_waits hheld hw] at h
      cases h.2
    · rw [doRemove_eq hheld hw] at h ⊢
      obtain ⟨hp, hreply⟩ := doRemoveContainer_free h.1
      exact ⟨⟨hp, hheld⟩, removeReply_returns.2 hreply⟩

theorem doRemove_letsGo {req : RemoveContainerRequest} (hs : s.Free) :
    ((doRemove req g s).1.Returns ∧ (doRemove req g s).2.Free) ↔
      s.LetsGo g (.removeContainer req) := by
  by_cases hw : s.poisoned = false ∧ ∃ ctr ∈ s.container req.containerId, g.DestroyWaits ctr
  · rw [doRemove_waits hs.2 hw]
    apply iff_of_false
    · intro h
      cases h.2.2
    · rintro ⟨ctr, hc, hnot, -⟩
      obtain ⟨-, ctr', hc', hwaits⟩ := hw
      cases hc.symm.trans hc'
      exact hnot hwaits
  · have hfree {a : Agent} : ({ s with toAgent := a } : Server).Free ↔ a.poisoned = false :=
      and_iff_left hs.2
    have hpresent : (s.sandbox.containers.lookup req.containerId).isSome =
        (s.container req.containerId).isSome := Server.container_isSome.symm
    rw [doRemove_eq hs.2 hw, removeReply_returns, hfree, doRemoveContainer_servesAt hs.1,
      ← Finmap.lookup_isSome, hpresent, Server.LetsGo]
    unfold Server.removeGuest Server.destroyOutcome
    cases hc : s.container req.containerId with
    | none =>
      apply iff_of_false
      · intro h
        cases h.1
      · rintro ⟨ctr, h, -⟩
        cases h
    | some ctr =>
      have hnot : ¬ g.DestroyWaits ctr := fun h => hw ⟨hs.1, ctr, hc, h⟩
      dsimp only
      rw [Jail.destroy_ne_panic, Jail.destroy_eq_ok]
      constructor
      · intro h
        exact ⟨ctr, rfl, hnot, h.2⟩
      · rintro ⟨c, hc, -, h⟩
        cases hc
        exact ⟨rfl, h⟩

theorem removeContainer_free_iff {req : RemoveContainerRequest} (hs : s.Free) :
    (serve g (.removeContainer req) s).2.Free ↔ s.LetsGo g (.removeContainer req) := by
  have hstate : (serve g (.removeContainer req) s).2 = (doRemove req g s).2 := failsWith_snd _ _ s
  rw [hstate, ← doRemove_letsGo hs]
  exact ⟨fun h => ⟨(doRemove_free h).2, h⟩, And.right⟩

/-- The handlers keep a free mutex exactly where they meet neither an unwrap that fails nor a call
that never returns. -/
theorem Server.free_iff_letsGo (hs : s.Free) (req : ServerRequest) :
    (serve g req s).2.Free ↔ s.LetsGo g req := by
  cases req with
  | removeContainer req => exact removeContainer_free_iff hs
  | execProcess cid eid process =>
    exact (locked_failsWith_free_iff execProcess_keepsFree hs _).trans execProcess_returns
  | signalProcess cid eid signal =>
    exact (locked_failsWith_returning_free_iff signalProcess_keepsFree hs _).trans
      signalProcess_ne_panic
  | waitProcess cid eid =>
    refine (locked_failsWith_returning_free_iff waitProcess_keepsFree hs _).trans ?_
    exact iff_of_true waitProcess_ne_panic trivial
  | finishWait cid pid =>
    exact (locked_failsWith_returning_free_iff finishWait_keepsFree hs _).trans finishWait_ne_panic
  | writeStdin cid eid data =>
    exact (locked_failsWith_free_iff writeStream_keepsFree hs _).trans writeStream_returns
  | readStdout cid eid len =>
    refine (readStream_free_iff hs _ len).trans (pickStream_ne_panic.trans ?_)
    exact iff_of_true nofun trivial
  | readStderr cid eid len =>
    exact (readStream_free_iff hs _ len).trans (pickStream_ne_panic.trans (imp_iff_right rfl))
  | closeStdin cid eid =>
    refine (locked_returning_free_iff closeStdin_keepsFree hs).trans ?_
    exact iff_of_true closeStdin_ne_panic trivial
  | ttyWinResize cid eid row column =>
    exact (locked_returning_free_iff ttyWinResize_keepsFree hs).trans ttyWinResize_ne_panic
  | listProcesses cid format args =>
    exact (locked_free_iff listProcesses_keepsFree hs).trans listProcesses_returns
  | updateContainer cid resources =>
    exact (locked_returning_free_iff updateContainer_keepsFree hs).trans updateContainer_ne_panic
  | statsContainer cid =>
    exact (locked_returning_free_iff statsContainer_keepsFree hs).trans statsContainer_ne_panic

/-- Whatever is served, a mutex that is free afterwards was free before. -/
theorem Server.free_of_serve (h : (serve g req s).2.Free) : s.Free := by
  cases req with
  | removeContainer req =>
    have hstate : (serve g (.removeContainer req) s).2 = (doRemove req g s).2 :=
      failsWith_snd _ _ s
    rw [hstate] at h
    exact (doRemove_free h).1
  | readStdout cid eid len =>
    have hstate := readStream_snd ⟨.internal, "failed to read stdout"⟩ cid eid len true g s
    exact (Act.free_of_exclusive (hstate ▸ h)).1
  | readStderr cid eid len =>
    have hstate := readStream_snd ⟨.internal, "failed to read stderr"⟩ cid eid len false g s
    exact (Act.free_of_exclusive (hstate ▸ h)).1
  | execProcess cid eid process => exact (Act.free_of_exclusive h).1
  | signalProcess cid eid signal => exact (Act.free_of_exclusive h).1
  | waitProcess cid eid => exact (Act.free_of_exclusive h).1
  | finishWait cid pid => exact (Act.free_of_exclusive h).1
  | writeStdin cid eid data => exact (Act.free_of_exclusive h).1
  | closeStdin cid eid => exact (Act.free_of_exclusive h).1
  | ttyWinResize cid eid row column => exact (Act.free_of_exclusive h).1
  | listProcesses cid format args => exact (Act.free_of_exclusive h).1
  | updateContainer cid resources => exact (Act.free_of_exclusive h).1
  | statsContainer cid => exact (Act.free_of_exclusive h).1

/-- A handler that lets the mutex go replies, unless it is left waiting by what it reads from. -/
theorem Server.returns_iff (hs : s.Free) (h : s.LetsGo g req) :
    (serve g req s).1.Returns ↔ s.ReadEnds g req := by
  have hfree := (Server.free_iff_letsGo hs req).2 h
  cases req with
  | removeContainer req =>
    exact iff_of_true (failsWith_returns.2 ((doRemove_letsGo hs).2 h).1) trivial
  | readStdout cid eid len =>
    have hp : (pickStream cid eid true s).1 ≠ .panic := by
      apply pickStream_ne_panic.2
      intro ho
      cases ho
    exact readStream_returns hs hp _ len
  | readStderr cid eid len =>
    have hp : (pickStream cid eid false s).1 ≠ .panic := pickStream_ne_panic.2 fun _ => h
    exact readStream_returns hs hp _ len
  | execProcess cid eid process => exact iff_of_true (Act.free_of_exclusive hfree).2 trivial
  | signalProcess cid eid signal => exact iff_of_true (Act.free_of_exclusive hfree).2 trivial
  | waitProcess cid eid => exact iff_of_true (Act.free_of_exclusive hfree).2 trivial
  | finishWait cid pid => exact iff_of_true (Act.free_of_exclusive hfree).2 trivial
  | writeStdin cid eid data => exact iff_of_true (Act.free_of_exclusive hfree).2 trivial
  | closeStdin cid eid => exact iff_of_true (Act.free_of_exclusive hfree).2 trivial
  | ttyWinResize cid eid row column => exact iff_of_true (Act.free_of_exclusive hfree).2 trivial
  | listProcesses cid format args => exact iff_of_true (Act.free_of_exclusive hfree).2 trivial
  | updateContainer cid resources => exact iff_of_true (Act.free_of_exclusive hfree).2 trivial
  | statsContainer cid => exact iff_of_true (Act.free_of_exclusive hfree).2 trivial

theorem Server.serves_iff : s.Serves g req ↔ s.Free ∧ s.Ready g req := by
  constructor
  · rintro ⟨hreply, hfree⟩
    have hs := Server.free_of_serve hfree
    have hgo := (Server.free_iff_letsGo hs req).1 hfree
    exact ⟨hs, hgo, (Server.returns_iff hs hgo).1 hreply⟩
  · rintro ⟨hs, hgo, hread⟩
    exact ⟨(Server.returns_iff hs hgo).2 hread, (Server.free_iff_letsGo hs req).2 hgo⟩

theorem Server.step_free {a : ServerAction} (h : s.step a = some t) :
    t.Free ↔ s.Free ∧ Answerable s a := by
  cases a with
  | request req g =>
    rw [Server.step, Option.ite_none_right_eq_some] at h
    obtain rfl := Option.some.inj h.2
    constructor
    · intro hf
      have hs := Server.free_of_serve hf
      exact ⟨hs, (Server.free_iff_letsGo hs req).1 hf⟩
    · rintro ⟨hs, hgo⟩
      exact (Server.free_iff_letsGo hs req).2 hgo
  | rest a inside =>
    obtain rfl := Option.some.inj h
    exact (and_iff_left trivial).symm

def pipedProcess : ServedProcess := ⟨"", true, some 10, some 11, some 12, none, some 13, 0⟩

def willingHandlers : HandlerGuest where
  remove := ⟨.ok (), true, fun _ => none, fun _ => none, fun _ => none⟩
  destroy := willingDestroy
  hookWaits _ := false
  processNew := none
  namespaces := none
  joinWaits := false
  join := none
  closePipes := none
  rest := none
  child := 20
  child_pos := by decide
  started := pipedProcess
  bundlePath _ := .ok (some "/run/bundle")
  signalHandled := true
  kill _ _ := none
  write := .wrote 1
  read := .again
  ioctl _ _ := none
  ps _ := .printed "PID"
  set := none
  cgroup := ⟨fun _ => .error notFound, [], id⟩

def emptyServer : Server :=
  ⟨⟨⟨∅, ∅, ∅, "", "", false, false⟩, false, id, [], ∅, []⟩, fun _ => ⟨"", [], -1, [], ∅⟩, [], false⟩

theorem emptyServer_init : server.init emptyServer := ⟨rfl, rfl, rfl, rfl⟩

/-- A container is created, and its init process gets its signal and its end of input. -/
def closedInput : List ServerAction :=
  [.rest (emptyServer.toAgent.onSandbox fun sb => { sb with
      containers := sb.containers.insert "pod" ⟨"pod", false, hookedSpec, some "running"⟩ })
    (fun _ => ⟨"1.0.1", [], 9, [(9, pipedProcess)], ∅⟩),
    .request (.signalProcess "pod" "" 15) willingHandlers,
    .request (.closeStdin "pod" "") willingHandlers]

end KataAgent
