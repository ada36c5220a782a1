import KataAgent.Message
import KataAgent.Records
import Mathlib.Data.UInt

namespace KataAgent
open Fallible Records
set_option autoImplicit true

/-- The size of a `pid_t`. -/
def PIDSIZE : Nat := 4

def toBeBytes (pid : Int32) : Bytes := (leBytes PIDSIZE pid.toBitVec.toNat).reverse

def fromBeBytes (v : Bytes) : Int32 := .ofBitVec (.ofNat 32 (le v.reverse))

@[simp] theorem length_toBeBytes : (toBeBytes pid).length = PIDSIZE := by
  rw [toBeBytes, List.length_reverse, length_leBytes]

theorem fromBeBytes_toBeBytes (pid : Int32) : fromBeBytes (toBeBytes pid) = pid := by
  have hlt : pid.toBitVec.toNat < 256 ^ PIDSIZE := pid.toBitVec.isLt
  rw [fromBeBytes, toBeBytes, List.reverse_reverse, le_leBytes_of_lt hlt, BitVec.ofNat_toNat,
    BitVec.setWidth_eq, Int32.ofBitVec_toBitVec]

/-- One pass of the loop of `read_sync`: it goes on with the bytes `v[..len]`, or it ends. -/
def readPass (got : Bytes) : Except Errno Bytes → Bytes ⊕ Outcome ErrorKind Int32
  | .ok bs =>
    let got := got ++ bs
    if got.length = PIDSIZE then .inr (.ok (fromBeBytes got)) else .inl got
  | .error e => if e ≠ .EINTR then .inr (.err (.nix e)) else .inl got

/-- `read_sync` after some passes, given what each `read` answers. -/
def readSync (answer : Nat → Except Errno Bytes) : Nat → Bytes ⊕ Outcome ErrorKind Int32
  | 0 => .inl []
  | n + 1 =>
    match readSync answer n with
    | .inl got => readPass got (answer n)
    | .inr r => .inr r

/-- The bytes of one answer. -/
def chunk : Except Errno Bytes → Bytes
  | .ok bs => bs
  | .error _ => []

/-- The bytes of the first answers. -/
def received (answer : Nat → Except Errno Bytes) : Nat → Bytes
  | 0 => []
  | n + 1 => received answer n ++ chunk (answer n)

/-- The first answers have no error but an interrupted call, and less than a word. -/
def Unfinished (answer : Nat → Except Errno Bytes) (n : Nat) : Prop :=
  (received answer n).length < PIDSIZE ∧ ∀ m < n, ∀ e, answer m = .error e → e = .EINTR

/-- The first answers have no error but an interrupted call, and a word. -/
def Whole (answer : Nat → Except Errno Bytes) (n : Nat) : Prop :=
  (received answer n).length = PIDSIZE ∧ ∀ m < n, ∀ e, answer m = .error e → e = .EINTR

/-- What the calls of `read` on a pipe can answer: no more than is asked for, and the end of file
for ever once the writer is gone and all is read. -/
structure PipeReads where
  answer : Nat → Except Errno Bytes
  fits : ∀ n, Unfinished answer n → (received answer (n + 1)).length ≤ PIDSIZE
  ended : ∀ n, Unfinished answer n → answer n = .ok [] → ∀ m, n ≤ m → answer m = .ok []

/-- The writer closes the pipe before a word is read. -/
def PipeReads.Closed (p : PipeReads) : Prop := ∃ n, Unfinished p.answer n ∧ p.answer n = .ok []

/-- From some time on a signal interrupts every call. -/
def PipeReads.Interrupted (p : PipeReads) : Prop :=
  ∃ n, Unfinished p.answer n ∧ ∀ m, n ≤ m → p.answer m = .error .EINTR

/-- The call ends, with the word after exactly `PIDSIZE` bytes, and with an error if the writer
closes the pipe before. -/
structure PipeReads.Answered (p : PipeReads) : Prop where
  ends : ∃ n r, readSync p.answer n = .inr r
  word : ∀ w, (∃ n, readSync p.answer n = .inr (.ok w)) ↔
    ∃ n, Whole p.answer n ∧ w = fromBeBytes (received p.answer n)
  closed : p.Closed → ∃ n e, readSync p.answer n = .inr (.err e)

variable {answer : Nat → Except Errno Bytes} {p : PipeReads}

theorem Unfinished.pred (h : Unfinished answer (n + 1)) : Unfinished answer n := by
  constructor
  · apply Nat.lt_of_le_of_lt _ h.1
    rw [received, List.length_append]
    exact Nat.le_add_right _ _
  · exact fun m hm => h.2 m (Nat.lt_succ_of_lt hm)

theorem readPass_eq_inl {got : Bytes} {a : Except Errno Bytes} :
    readPass got a = .inl got' ↔ got' = got ++ chunk a ∧
      (∀ bs, a = .ok bs → got'.length ≠ PIDSIZE) ∧ ∀ e, a = .error e → e = .EINTR := by
  cases a with
  | ok bs =>
    rw [readPass, chunk]
    split
    · rename_i h
      apply iff_of_false nofun
      rintro ⟨rfl, hn, -⟩
      exact hn bs rfl h
    · rename_i h
      constructor
      · rintro ⟨⟩
        exact ⟨rfl, fun _ _ => h, nofun⟩
      · rintro ⟨rfl, -⟩
        rfl
  | error e =>
    rw [readPass, chunk, List.append_nil]
    split
    · rename_i h
      apply iff_of_false nofun
      rintro ⟨-, -, he⟩
      exact h (he e rfl)
    · rename_i h
      constructor
      · rintro ⟨⟩
        refine ⟨rfl, nofun, ?_⟩
        rintro _ ⟨⟩
        exact of_not_not h
      · rintro ⟨rfl, -⟩
        rfl

/-- The loop goes on as long as it has neither a word nor an error, with the bytes that it got. -/
theorem PipeReads.readSync_eq_inl (p : PipeReads) :
    readSync p.answer n = .inl got ↔ Unfinished p.answer n ∧ got = received p.answer n := by
  induction n generalizing got with
  | zero =>
    rw [readSync, received]
    constructor
    · rintro ⟨⟩
      exact ⟨⟨Nat.succ_pos 3, fun m hm => absurd hm (Nat.not_lt_zero m)⟩, rfl⟩
    · rintro ⟨-, rfl⟩
      rfl
  | succ n ih =>
    rw [readSync]
    constructor
    · intro h
      cases hr : readSync p.answer n with
      | inr r =>
        rw [hr] at h
        cases h
      | inl got₀ =>
        rw [hr] at h
        obtain ⟨hu, rfl⟩ := ih.1 hr
        obtain ⟨rfl, hlen, he⟩ := readPass_eq_inl.1 h
        refine ⟨⟨?_, fun m hm => ?_⟩, rfl⟩
        · cases ha : p.answer n with
          | error e =>
            rw [received, ha, chunk, List.append_nil]
            exact hu.1
          | ok bs => exact Nat.lt_of_le_of_ne (p.fits n hu) (hlen bs ha)
        · rcases Nat.lt_succ_iff_lt_or_eq.1 hm with hm | rfl
          · exact hu.2 m hm
          · exact he
    · rintro ⟨hu, rfl⟩
      rw [ih.2 ⟨hu.pred, rfl⟩]
      apply readPass_eq_inl.2
      exact ⟨rfl, fun _ _ => Nat.ne_of_lt hu.1, hu.2 n (Nat.lt_succ_self n)⟩

theorem readSync_add (h : readSync answer n = .inr r) (k : Nat) :
    readSync answer (n + k) = .inr r := by
  induction k with
  | zero => exact h
  | succ k ih => rw [← Nat.add_assoc, readSync, ih]

theorem readPass_eq_ok {got : Bytes} {a : Except Errno Bytes} :
    readPass got a = .inr (.ok w) ↔ (∃ bs, a = .ok bs) ∧
      (got ++ chunk a).length = PIDSIZE ∧ w = fromBeBytes (got ++ chunk a) := by
  cases a with
  | ok bs =>
    rw [readPass, chunk]
    split
    · rename_i h
      constructor
      · rintro ⟨⟩
        exact ⟨⟨bs, rfl⟩, h, rfl⟩
      · rintro ⟨-, -, rfl⟩
        rfl
    · rename_i h
      exact iff_of_false nofun fun hk => h hk.2.1
  | error e =>
    apply iff_of_false
    · rw [readPass]
      split
      · nofun
      · nofun
    · rintro ⟨⟨bs, ⟨⟩⟩, -⟩

/-- Only a whole word is returned. -/
theorem PipeReads.whole_of_word (p : PipeReads) (h : readSync p.answer n = .inr (.ok w)) :
    ∃ m, Whole p.answer m ∧ w = fromBeBytes (received p.answer m) := by
  induction n with
  | zero => cases h
  | succ n ih =>
    rw [readSync] at h
    cases hr : readSync p.answer n with
    | inr r =>
      rw [hr] at h
      exact ih (hr.trans h)
    | inl got =>
      rw [hr] at h
      obtain ⟨hu, rfl⟩ := p.readSync_eq_inl.1 hr
      obtain ⟨⟨bs, ha⟩, hlen, hw⟩ := readPass_eq_ok.1 h
      refine ⟨n + 1, ⟨hlen, fun m hm e he => ?_⟩, hw⟩
      rcases Nat.lt_succ_iff_lt_or_eq.1 hm with hm | rfl
      · exact hu.2 m hm e he
      · cases ha.symm.trans he

/-- A whole word is returned, at the first chance. -/
theorem PipeReads.word_of_whole (p : PipeReads) (h : Whole p.answer n) :
    ∃ m, readSync p.answer m = .inr (.ok (fromBeBytes (received p.answer n))) := by
  induction n with
  | zero => cases h.1
  | succ n ih =>
    have hn : ∀ m < n, ∀ e, p.answer m = .error e → e = .EINTR := fun m hm =>
      h.2 m (Nat.lt_succ_of_lt hm)
    have hlen := h.1
    rw [received, List.length_append] at hlen
    by_cases hw : (received p.answer n).length = PIDSIZE
    · have hnil : chunk (p.answer n) = [] := List.eq_nil_of_length_eq_zero (by omega)
      rw [received, hnil, List.append_nil]
      exact ih ⟨hw, hn⟩
    · have hu : Unfinished p.answer n := ⟨by omega, hn⟩
      apply Exists.intro (n + 1)
      rw [readSync, p.readSync_eq_inl.2 ⟨hu, rfl⟩]
      apply readPass_eq_ok.2
      refine ⟨?_, h.1, rfl⟩
      cases ha : p.answer n with
      | ok bs => exact ⟨bs, rfl⟩
      | error e =>
        rw [ha, chunk] at hlen
        exact absurd hlen hw

/-- Answers that bring nothing and are no error but an interrupted call keep the loop going. -/
theorem PipeReads.spins (p : PipeReads) (hu : Unfinished p.answer n)
    (h : ∀ m, n ≤ m → p.answer m = .ok [] ∨ p.answer m = .error .EINTR) (k : Nat) :
    readSync p.answer (n + k) = .inl (received p.answer n) := by
  induction k with
  | zero => exact p.readSync_eq_inl.2 ⟨hu, rfl⟩
  | succ k ih =>
    rw [← Nat.add_assoc, readSync, ih]
    apply readPass_eq_inl.2
    rcases h (n + k) (Nat.le_add_right n k) with ha | ha
    · rw [ha, chunk, List.append_nil]
      exact ⟨rfl, fun _ _ => Nat.ne_of_lt hu.1, nofun⟩
    · rw [ha, chunk, List.append_nil]
      refine ⟨rfl, nofun, ?_⟩
      rintro _ ⟨⟩
      rfl

theorem PipeReads.never_ends (p : PipeReads) (hu : Unfinished p.answer n)
    (h : ∀ m, n ≤ m → p.answer m = .ok [] ∨ p.answer m = .error .EINTR) :
    ¬ ∃ m r, readSync p.answer m = .inr r := by
  rintro ⟨m, r, hr⟩
  have hend := readSync_add hr n
  rw [Nat.add_comm, p.spins hu h m] at hend
  cases hend

/-- A loop that goes on gets any number of bytes if it is neither at the end of the file nor
interrupted for ever. -/
theorem PipeReads.received_grows (hc : ¬ p.Closed) (hi : ¬ p.Interrupted)
    (hu : ∀ n, Unfinished p.answer n) (k : Nat) : ∃ n, k ≤ (received p.answer n).length := by
  induction k with
  | zero => exact ⟨0, Nat.zero_le _⟩
  | succ k ih =>
    obtain ⟨n, hn⟩ := ih
    have hgrow (m : Nat) : (received p.answer n).length ≤ (received p.answer (n + m)).length := by
      induction m with
      | zero => exact Nat.le_refl _
      | succ m ih =>
        rw [← Nat.add_assoc, received, List.length_append]
        exact Nat.le_trans ih (Nat.le_add_right _ _)
    obtain ⟨m, hm, ha⟩ : ∃ m, n ≤ m ∧ p.answer m ≠ .error .EINTR := by
      by_contra hno
      exact hi ⟨n, hu n, fun m hm => by_contra fun ha => hno ⟨m, hm, ha⟩⟩
    obtain ⟨j, rfl⟩ := Nat.exists_eq_add_of_le hm
    apply Exists.intro (n + j + 1)
    rw [received, List.length_append]
    cases hr : p.answer (n + j) with
    | error e =>
      cases (hu (n + j + 1)).2 (n + j) (Nat.lt_succ_self _) e hr
      exact absurd hr ha
    | ok bs =>
      cases bs with
      | nil => exact absurd ⟨n + j, hu _, hr⟩ hc
      | cons b bs =>
        have hlen : (chunk (.ok (b :: bs))).length = bs.length + 1 := rfl
        have hle := hgrow j
        omega

/-- `read_sync` ends as it should exactly if the writer does not close the pipe early and the call
is not interrupted for ever. -/
theorem PipeReads.answered_iff (p : PipeReads) :
    p.Answered ↔ ¬ p.Closed ∧ ¬ p.Interrupted := by
  constructor
  · intro h
    constructor
    · rintro ⟨n, hu, hn⟩
      exact p.never_ends hu (fun m hm => .inl (p.ended n hu hn m hm)) h.ends
    · rintro ⟨n, hu, hn⟩
      exact p.never_ends hu (fun m hm => .inr (hn m hm)) h.ends
  · rintro ⟨hc, hi⟩
    refine ⟨?_, fun w => ⟨fun ⟨n, hn⟩ => p.whole_of_word hn, ?_⟩, fun h => absurd h hc⟩
    case refine_2 =>
      rintro ⟨n, hn, rfl⟩
      exact p.word_of_whole hn
    by_contra hno
    have hu (n : Nat) : Unfinished p.answer n := by
      cases hr : readSync p.answer n with
      | inl got => exact (p.readSync_eq_inl.1 hr).1
      | inr r => exact absurd ⟨n, r, hr⟩ hno
    obtain ⟨n, hn⟩ := PipeReads.received_grows hc hi hu PIDSIZE
    exact absurd (hu n).1 (Nat.not_lt_of_le hn)

theorem received_ended (n : Nat) : received (fun _ => .ok []) n = [] := by
  induction n with
  | zero => rfl
  | succ n ih => rw [received, ih]; rfl

/-- The writer exits before it writes. -/
def writerGone : PipeReads where
  answer _ := .ok []
  fits n _ := by
    rw [received_ended]
    exact Nat.zero_le _
  ended _ _ _ _ _ := rfl

theorem PipeReads.answered_gone :
    (¬ ∀ p : PipeReads, p.Answered) ∧ ∀ n, readSync writerGone.answer n = .inl [] := by
  have hu : Unfinished writerGone.answer 0 :=
    ⟨Nat.succ_pos 3, fun m hm => absurd hm (Nat.not_lt_zero m)⟩
  have hend : ∀ m, 0 ≤ m → writerGone.answer m = .ok [] ∨ writerGone.answer m = .error .EINTR :=
    fun _ _ => .inl rfl
  constructor
  · intro h
    exact writerGone.never_ends hu hend (h writerGone).ends
  · intro n
    have hn := writerGone.spins hu hend n
    rw [Nat.zero_add] at hn
    exact hn

end KataAgent
