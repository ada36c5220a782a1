import KataAgent.SyncReads
import KataAgent.Transition

namespace KataAgent
open Fallible Records Transition
set_option autoImplicit true

/-- One pass of the loop of `write_sync`, with `len` bytes of the buffer written. -/
def writePass (len : Nat) : Except Errno Nat → Nat ⊕ Outcome ErrorKind Unit
  | .ok l => if len + l = PIDSIZE then .inr (.ok ()) else .inl (len + l)
  | .error e => if e ≠ .EINTR then .inr (.err (.nix e)) else .inl len

/-- A writer and a reader at the ends of one pipe, which call `write_sync` and `read_sync` for one
word after the other. -/
structure Transfer where
  /-- The words of the calls of `write_sync` that have not returned. -/
  unsent : List Int32
  len : Nat
  pipe : Bytes
  got : Bytes
  /-- The number of calls of `read_sync` that have not returned. -/
  calls : Nat
  sent : List (Outcome ErrorKind Unit)
  returned : List (Outcome ErrorKind Int32)
  deriving DecidableEq

/-- How the kernel answers the next `write` or `read`: it takes or gives some bytes, or a signal
interrupts the call. -/
inductive TransferAction where
  | write (l : Nat)
  | writeInterrupted
  | read (l : Nat)
  | readInterrupted
  deriving DecidableEq

def Transfer.wrote (s : Transfer) (words : List Int32) : Nat ⊕ Outcome ErrorKind Unit → Transfer
  | .inl len => { s with len := len }
  | .inr r => { s with unsent := words, len := 0, sent := s.sent ++ [r] }

def Transfer.read (s : Transfer) (calls : Nat) : Bytes ⊕ Outcome ErrorKind Int32 → Transfer
  | .inl got => { s with got := got }
  | .inr r => { s with got := [], calls := calls, returned := s.returned ++ [r] }

/-- A `write` takes at least one byte of what it is given, and a `read` that does not wait gives at
least one. -/
def Transfer.step (s : Transfer) : TransferAction → Option Transfer
  | .write l =>
    match s.unsent with
    | [] => none
    | pid :: words =>
      let buf := (toBeBytes pid).drop s.len
      if 0 < l ∧ l ≤ buf.length then
        some ({ s with pipe := s.pipe ++ buf.take l }.wrote words (writePass s.len (.ok l)))
      else none
  | .writeInterrupted =>
    match s.unsent with
    | [] => none
    | _ :: words => some (s.wrote words (writePass s.len (.error .EINTR)))
  | .read l =>
    match s.calls with
    | 0 => none
    | calls + 1 =>
      if 0 < l ∧ l ≤ s.pipe.length ∧ l ≤ PIDSIZE - s.got.length then
        some ({ s with pipe := s.pipe.drop l }.read calls (readPass s.got (.ok (s.pipe.take l))))
      else none
  | .readInterrupted =>
    match s.calls with
    | 0 => none
    | calls + 1 => some (s.read calls (readPass s.got (.error .EINTR)))

def transfer (words : List Int32) : System Transfer TransferAction where
  init s := s = ⟨words, 0, [], [], words.length, [], []⟩
  step := Transfer.step

def TransferAction.moves : TransferAction → Bool
  | .write _ => true
  | .read _ => true
  | _ => false

/-- The bytes of the words. -/
def bytes (words : List Int32) : Bytes := words.flatMap toBeBytes

/-- What is returned are the first words, and the others are in the reader's buffer, the pipe and
the writer's buffer, in this order. -/
structure Transfer.Fifo (words : List Int32) (s : Transfer) : Prop where
  split : ∃ done due, words = done ++ due ∧ s.returned = done.map .ok ∧ s.calls = due.length ∧
    s.got ++ (s.pipe ++ (bytes s.unsent).drop s.len) = bytes due
  got_lt : s.got.length < PIDSIZE
  len_lt : s.len < PIDSIZE
  sent : ∀ r ∈ s.sent, r = .ok ()

/-- The bytes that are still to write, and those that are still to read. -/
def Transfer.left (s : Transfer) : Nat :=
  (PIDSIZE * s.unsent.length - s.len) + (PIDSIZE * s.calls - s.got.length)

variable {words : List Int32} {s t : Transfer}

theorem bytes_cons : bytes (pid :: words) = toBeBytes pid ++ bytes words := List.flatMap_cons

theorem length_bytes (words : List Int32) : (bytes words).length = PIDSIZE * words.length := by
  induction words with
  | nil => rfl
  | cons pid words ih =>
    rw [bytes_cons, List.length_append, length_toBeBytes, ih, List.length_cons, Nat.mul_succ,
      Nat.add_comm]

/-- A chunk moves from the writer's buffer to the end of the pipe. -/
theorem take_drop_bytes {len l : Nat} (h : len + l ≤ PIDSIZE) :
    ((toBeBytes pid).drop len).take l ++ (bytes (pid :: words)).drop (len + l) =
      (bytes (pid :: words)).drop len := by
  have hb : (bytes (pid :: words)).drop len = (toBeBytes pid).drop len ++ bytes words := by
    rw [bytes_cons, List.drop_append_of_le_length (by rw [length_toBeBytes]; omega)]
  have hb' : (bytes (pid :: words)).drop (len + l) =
      ((toBeBytes pid).drop len).drop l ++ bytes words := by
    rw [bytes_cons, List.drop_append_of_le_length (by rw [length_toBeBytes]; omega), List.drop_drop]
  rw [hb, hb', ← List.append_assoc, List.take_append_drop]

theorem Transfer.step_write (hlen : s.len < PIDSIZE) : s.step (.write l) = some t ↔
    ∃ pid rest, s.unsent = pid :: rest ∧ 0 < l ∧ s.len + l ≤ PIDSIZE ∧
      t = { s with pipe := s.pipe ++ ((toBeBytes pid).drop s.len).take l }.wrote rest
        (writePass s.len (.ok l)) := by
  rw [Transfer.step]
  split
  · rename_i hu
    apply iff_of_false nofun
    rintro ⟨pid, rest, h, -⟩
    cases hu.symm.trans h
  · rename_i pid rest hu
    rw [Option.ite_none_right_eq_some, List.length_drop, length_toBeBytes]
    constructor
    · rintro ⟨⟨hl, hle⟩, ⟨⟩⟩
      exact ⟨pid, rest, hu, hl, by omega, rfl⟩
    · rintro ⟨_, _, h, hl, hle, rfl⟩
      cases hu.symm.trans h
      exact ⟨⟨hl, by omega⟩, rfl⟩

theorem Transfer.step_read (hgot : s.got.length < PIDSIZE) : s.step (.read l) = some t ↔
    ∃ n, s.calls = n + 1 ∧ 0 < l ∧ l ≤ s.pipe.length ∧ s.got.length + l ≤ PIDSIZE ∧
      t = { s with pipe := s.pipe.drop l }.read n (readPass s.got (.ok (s.pipe.take l))) := by
  rw [Transfer.step]
  split
  · rename_i hc
    apply iff_of_false nofun
    rintro ⟨n, h, -⟩
    cases hc.symm.trans h
  · rename_i n hc
    rw [Option.ite_none_right_eq_some]
    constructor
    · rintro ⟨⟨hl, hle, hfit⟩, ⟨⟩⟩
      exact ⟨n, hc, hl, hle, by omega, rfl⟩
    · rintro ⟨_, h, hl, hle, hfit, rfl⟩
      cases hc.symm.trans h
      exact ⟨⟨hl, hle, by omega⟩, rfl⟩

/-- An interrupted call is made again. -/
theorem Transfer.step_interrupted (ha : a.moves = false) (h : s.step a = some t) : t = s := by
  cases a with
  | write l => cases ha
  | read l => cases ha
  | writeInterrupted =>
    rw [Transfer.step] at h
    split at h
    · cases h
    · exact (Option.some.inj h).symm
  | readInterrupted =>
    rw [Transfer.step] at h
    split at h
    · cases h
    · exact (Option.some.inj h).symm

theorem Transfer.Fifo.write (hs : s.Fifo words) (hu : s.unsent = pid :: rest)
    (hle : s.len + l ≤ PIDSIZE) :
    ({ s with pipe := s.pipe ++ ((toBeBytes pid).drop s.len).take l }.wrote rest
      (writePass s.len (.ok l))).Fifo words := by
  obtain ⟨done, due, hw, hr, hc, hb⟩ := hs.split
  have hmove : ((toBeBytes pid).drop s.len).take l ++ (bytes s.unsent).drop (s.len + l) =
      (bytes s.unsent).drop s.len := by
    rw [hu]
    exact take_drop_bytes hle
  rw [writePass]
  split
  · rename_i hfull
    have hrest : (bytes s.unsent).drop (s.len + l) = bytes rest := by
      rw [hfull, hu, bytes_cons, List.drop_left' length_toBeBytes]
    exact {
      split := by
        refine ⟨done, due, hw, hr, hc, ?_⟩
        rw [← hb, ← hmove, hrest, Transfer.wrote]
        dsimp only
        rw [List.drop_zero, List.append_assoc]
      got_lt := hs.got_lt
      len_lt := Nat.succ_pos 3
      sent := by
        intro r hr
        rcases List.mem_append.1 hr with hr | hr
        · exact hs.sent r hr
        · exact List.mem_singleton.1 hr }
  · rename_i hpart
    exact {
      split := by
        refine ⟨done, due, hw, hr, hc, ?_⟩
        rw [← hb, ← hmove, Transfer.wrote]
        dsimp only
        rw [List.append_assoc]
      got_lt := hs.got_lt
      len_lt := Nat.lt_of_le_of_ne hle hpart
      sent := hs.sent }

theorem Transfer.Fifo.read (hs : s.Fifo words) (hc : s.calls = n + 1)
    (hle : s.got.length + (s.pipe.take l).length ≤ PIDSIZE) :
    ({ s with pipe := s.pipe.drop l }.read n
      (readPass s.got (.ok (s.pipe.take l)))).Fifo words := by
  obtain ⟨done, due, hw, hr, hcalls, hb⟩ := hs.split
  have hmove : (s.got ++ s.pipe.take l) ++ (s.pipe.drop l ++ (bytes s.unsent).drop s.len) =
      bytes due := by
    rw [← hb, List.append_assoc, ← List.append_assoc (s.pipe.take l), List.take_append_drop]
  rw [readPass]
  split
  · rename_i hfull
    cases due with
    | nil => cases hc.symm.trans hcalls
    | cons pid due =>
      rw [bytes_cons] at hmove
      obtain ⟨hword, hrest⟩ := List.append_inj hmove (hfull.trans length_toBeBytes.symm)
      exact {
        split := by
          refine ⟨done ++ [pid], due, ?_, ?_, ?_, ?_⟩
          · rw [hw, List.append_assoc, List.singleton_append]
          · rw [Transfer.read, hword, fromBeBytes_toBeBytes, List.map_append, ← hr]
            rfl
          · exact Nat.succ.inj (hc.symm.trans hcalls)
          · exact hrest
        got_lt := Nat.succ_pos 3
        len_lt := hs.len_lt
        sent := hs.sent }
  · rename_i hpart
    exact {
      split := ⟨done, due, hw, hr, hcalls, hmove⟩
      got_lt := by
        apply Nat.lt_of_le_of_ne _ hpart
        rw [List.length_append]
        exact hle
      len_lt := hs.len_lt
      sent := hs.sent }

theorem Transfer.Fifo.step (hs : s.Fifo words) (h : s.step a = some t) : t.Fifo words := by
  cases a with
  | write l =>
    obtain ⟨pid, rest, hu, -, hle, rfl⟩ := (Transfer.step_write hs.len_lt).1 h
    exact hs.write hu hle
  | read l =>
    obtain ⟨n, hc, -, -, hfit, rfl⟩ := (Transfer.step_read hs.got_lt).1 h
    apply hs.read hc
    rw [List.length_take]
    omega
  | writeInterrupted => exact Transfer.step_interrupted rfl h ▸ hs
  | readInterrupted => exact Transfer.step_interrupted rfl h ▸ hs

theorem Transfer.Fifo.init (h : (transfer words).init s) : s.Fifo words := by
  cases h
  exact {
    split := ⟨[], words, rfl, rfl, rfl, rfl⟩
    got_lt := Nat.succ_pos 3
    len_lt := Nat.succ_pos 3
    sent := fun r hr => absurd hr (List.not_mem_nil) }

theorem Transfer.Fifo.of_reachable (h : (transfer words).Reachable s) : s.Fifo words :=
  h.invariant (fun _ => .init) fun _ _ _ hs _ hst => hs.step hst

/-- As long as a word is due, one of the two can go on. -/
theorem Transfer.Fifo.progress (hs : s.Fifo words) (hc : s.calls ≠ 0) :
    ∃ a t, a.moves = true ∧ s.step a = some t := by
  obtain ⟨n, hn⟩ := Nat.exists_eq_succ_of_ne_zero hc
  obtain ⟨done, due, -, -, hdue, hb⟩ := hs.split
  have hlen := congrArg List.length hb
  rw [length_bytes, ← hdue, hn, List.length_append, List.length_append, Nat.mul_succ] at hlen
  have hgot := hs.got_lt
  by_cases hp : s.pipe = []
  · -- the bytes that are due are still with the writer
    cases hu : s.unsent with
    | nil =>
      rw [hp, hu, bytes, List.flatMap_nil, List.drop_nil, List.length_nil] at hlen
      omega
    | cons pid rest =>
      refine ⟨.write 1, _, rfl, (Transfer.step_write hs.len_lt).2 ⟨pid, rest, hu, ?_, ?_, rfl⟩⟩
      · exact Nat.one_pos
      · exact hs.len_lt
  · refine ⟨.read 1, _, rfl, (Transfer.step_read hs.got_lt).2 ⟨n, hn, ?_, ?_, ?_, rfl⟩⟩
    · exact Nat.one_pos
    · exact List.length_pos_iff.2 hp
    · exact hgot

/-- Every step that moves bytes leaves fewer. -/
theorem Transfer.Fifo.left_lt (hs : s.Fifo words) (ha : a.moves = true) (h : s.step a = some t) :
    t.left + 1 ≤ s.left := by
  cases a with
  | write l =>
    obtain ⟨pid, rest, hu, hl, hle, rfl⟩ := (Transfer.step_write hs.len_lt).1 h
    rw [Transfer.left, Transfer.left, writePass]
    split
    · simp only [Transfer.wrote, hu, List.length_cons, Nat.mul_succ]
      omega
    · simp only [Transfer.wrote, hu, List.length_cons, Nat.mul_succ]
      omega
  | read l =>
    obtain ⟨n, hc, hl, hle, hfit, rfl⟩ := (Transfer.step_read hs.got_lt).1 h
    have htake : (s.got ++ s.pipe.take l).length = s.got.length + l := by
      rw [List.length_append, List.length_take, Nat.min_eq_left hle]
    rw [Transfer.left, Transfer.left, readPass]
    split
    · simp only [Transfer.read, hc, Nat.mul_succ, List.length_nil]
      omega
    · simp only [Transfer.read, htake, hc, Nat.mul_succ]
      omega
  | writeInterrupted => cases ha
  | readInterrupted => cases ha

theorem Transfer.Fifo.countP_moves {l : List TransferAction} (hs : s.Fifo words)
    (h : (transfer words).run s l = some t) : l.countP TransferAction.moves + t.left ≤ s.left := by
  induction l generalizing s with
  | nil =>
    cases h
    rw [List.countP_nil, Nat.zero_add]
  | cons a l ih =>
    obtain ⟨u, hu, h⟩ := Option.bind_eq_some_iff.1 h
    have hl := ih (hs.step hu) h
    rw [List.countP_cons]
    split
    · rename_i ha
      have hlt := hs.left_lt ha hu
      omega
    · rename_i ha
      rw [Transfer.step_interrupted (Bool.eq_false_of_not_eq_true ha) hu] at hl
      omega

/-- The reader gets the words in order, and all of them unless every call is interrupted from some
time on: bytes can move until the last word is returned, and only so often. -/
theorem Transfer.returned_eq (h : (transfer words).init s) {l : List TransferAction}
    (hr : (transfer words).run s l = some t) :
    t.returned <+: words.map .ok ∧
      (t.calls = 0 → t.returned = words.map .ok) ∧ (∀ r ∈ t.sent, r = .ok ()) ∧
      (t.calls ≠ 0 → ∃ a u, a.moves = true ∧ t.step a = some u) ∧
      l.countP TransferAction.moves ≤ 2 * PIDSIZE * words.length := by
  have hs : s.Fifo words := .init h
  have ht : t.Fifo words := .of_reachable (System.reachable_of_run h hr)
  obtain ⟨done, due, hw, hret, hcalls, -⟩ := ht.split
  refine ⟨?_, fun hc => ?_, ht.sent, ht.progress, ?_⟩
  · rw [hret, hw, List.map_append]
    exact List.prefix_append _ _
  · have hdue : due = [] := List.eq_nil_of_length_eq_zero (hcalls.symm.trans hc)
    rw [hdue, List.append_nil] at hw
    rw [hret, hw]
  · have hcount := hs.countP_moves hr
    have hstart : s.left = 2 * PIDSIZE * words.length := by
      cases h
      rw [Nat.mul_assoc, Nat.two_mul]
      rfl
    omega

/-- Two words in the pipe at once, in chunks, with an interrupted call at either end. -/
def chunkedRun : List TransferAction :=
  [.write 3, .writeInterrupted, .write 1, .write 2, .read 3, .readInterrupted, .write 2, .read 1,
    .read 4]

theorem Transfer.returned_eq_chunked : ∃ t,
    (transfer [-7, 300]).run ⟨[-7, 300], 0, [], [], 2, [], []⟩ chunkedRun = some t ∧
      t.returned = [.ok (-7), .ok 300] := by
  obtain ⟨t, ht⟩ : ∃ t, (transfer [-7, 300]).run ⟨[-7, 300], 0, [], [], 2, [], []⟩ chunkedRun =
    some t := ⟨_, rfl⟩
  have hc : ((transfer [-7, 300]).run ⟨[-7, 300], 0, [], [], 2, [], []⟩ chunkedRun).map
      Transfer.calls = some 0 := by decide
  rw [ht] at hc
  exact ⟨t, ht, (Transfer.returned_eq rfl ht).2.1 (Option.some.inj hc)⟩

end KataAgent
