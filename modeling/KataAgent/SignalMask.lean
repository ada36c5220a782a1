import KataAgent.CgroupFiles
import KataAgent.IpText
import KataAgent.ProcessHandlers
import Mathlib.Data.Nat.Bitwise

namespace KataAgent
open Fallible IpText
set_option autoImplicit true

/-- `u64::from_str_radix`, whose error is not looked at. -/
def fromStrRadix (radix : Nat) (s : Chars) : Option UInt64 :=
  let ds := if s.head? = some '+' then s.tail else s
  if ds = [] ∨ ds.all (isDigit radix) = false ∨ 2 ^ 64 ≤ value radix ds then none
  else some (UInt64.ofNat (value radix ds))

def sigCgt : Chars := "SigCgt:".toList

/-- `1u64 << (signum - 1)`. -/
def signalBit (signum : UInt32) : UInt64 := 1 <<< (signum - 1).toUInt64

/-- What a line that starts with `SigCgt:` says about the signal. -/
def readMask (sigMask : UInt64) (line : Chars) : Bool :=
  match line.splitOn ':' with
  | [_, sigCgtStr] =>
    match fromStrRadix 16 sigCgtStr with
    | some sigCgtMask => sigCgtMask &&& sigMask = sigMask
    | none => false
  | _ => false

/-- The loop over `reader.lines()`; a line that cannot be read as text ends it. -/
def scanStatus (sigMask : UInt64) : List (Option Chars) → Bool
  | [] => false
  | none :: _ => false
  | some line :: rest =>
    if sigCgt <+: line then readMask sigMask line else scanStatus sigMask rest

/-- The file is `none` when it cannot be opened. -/
def isSignalHandled (file : Option (List (Option Chars))) (signum : UInt32) : Bool :=
  match file with
  | none => false
  | some lines => scanStatus (signalBit signum) lines

/-- A number in `k` hexadecimal digits. -/
def hexText : Nat → Nat → Chars
  | 0, _ => []
  | k + 1, n => hexText k (n / 16) ++ [Nat.digitChar (n % 16)]

/-- `/proc/<pid>/status`, with any other lines around the one of the caught mask. -/
structure KernelStatus where
  before : List Chars
  caught : UInt64
  after : List Chars
  before_ok : ∀ l ∈ before, '\n' ∉ l ∧ ¬sigCgt <+: l
  after_ok : ∀ l ∈ after, '\n' ∉ l

def KernelStatus.maskLine (f : KernelStatus) : Chars :=
  sigCgt ++ '\t' :: hexText 16 f.caught.toNat

def KernelStatus.text (f : KernelStatus) : String :=
  fileText (f.before ++ f.maskLine :: f.after)

/-- The lines that the reader hands out. -/
def KernelStatus.read (f : KernelStatus) : List (Option Chars) := (lines f.text).map some

/-- The process has a handler for the signal. -/
def KernelStatus.catches (f : KernelStatus) (signum : UInt32) : Bool :=
  f.caught.toNat.testBit (signum.toNat - 1)

/-- The reply when the signal goes to the process, or the kernel refuses it. -/
def delivered (fault : Option Errno) : Outcome ErrorKind Reply :=
  (syscall fault).bind fun _ => .ok .empty

/-- The process's handler is found, and `SIGTERM` is made `SIGKILL` only for an init process that
has none. -/
structure SignalServed (f : KernelStatus) (signum : UInt32) : Prop where
  handled : isSignalHandled (some f.read) signum = f.catches signum
  sent : ∀ (s : Server) (cid eid : String) (g : HandlerGuest) (pid : Int) (p : ServedProcess) sig,
    s.findProcess cid eid true = .ok (pid, p) → fromCInt signum = some sig →
    g.signalHandled = isSignalHandled (some f.read) signum →
    doSignalProcess cid eid signum g s = (delivered (g.kill pid
      (if p.init = true ∧ sig = sigterm ∧ f.catches signum = false then sigkill else sig)), s)

theorem digit_digitChar (d : Fin 16) : digit 16 (Nat.digitChar d) = some d.val := by
  revert d
  decide

theorem hexText_digits (k n : Nat) : ∀ c ∈ hexText k n, isDigit 16 c = true := by
  induction k generalizing n with
  | zero => exact fun c h => absurd h List.not_mem_nil
  | succ k ih =>
    intro c hc
    rcases List.mem_append.1 hc with hc | hc
    · exact ih (n / 16) c hc
    · rw [List.mem_singleton.1 hc, isDigit, digit_digitChar ⟨n % 16, Nat.mod_lt n (by decide)⟩]
      rfl

theorem hexText_ne_nil (k n : Nat) : hexText (k + 1) n ≠ [] :=
  List.append_ne_nil_of_right_ne_nil _ (List.cons_ne_nil _ _)

theorem value_hexText (k n : Nat) : value 16 (hexText k n) = n % 16 ^ k := by
  induction k generalizing n with
  | zero => rw [Nat.pow_zero, Nat.mod_one]; rfl
  | succ k ih =>
    have hv : value 16 (hexText (k + 1) n) = 16 * value 16 (hexText k (n / 16)) + n % 16 := by
      rw [value, hexText, List.foldl_append, List.foldl_cons, List.foldl_nil,
        digit_digitChar ⟨n % 16, Nat.mod_lt n (by decide)⟩]
      rfl
    rw [hv, ih, Nat.pow_succ', Nat.mod_mul, Nat.add_comm]

theorem notMem_hexText {c : Char} (hc : isDigit 16 c = false) (k n : Nat) : c ∉ hexText k n := by
  intro h
  rw [hexText_digits k n c h] at hc
  cases hc

/-- The digits alone are read as the mask. -/
theorem fromStrRadix_hexText (m : UInt64) : fromStrRadix 16 (hexText 16 m.toNat) = some m := by
  have hplus : (hexText 16 m.toNat).head? ≠ some '+' := fun h =>
    notMem_hexText (by decide) 16 m.toNat (List.mem_of_head? h)
  have hall : (hexText 16 m.toNat).all (isDigit 16) = true :=
    List.all_eq_true.2 (hexText_digits 16 m.toNat)
  have hvalue : value 16 (hexText 16 m.toNat) = m.toNat := by
    rw [value_hexText]
    exact Nat.mod_eq_of_lt m.toNat_lt
  rw [fromStrRadix, if_neg hplus, if_neg, hvalue, UInt64.ofNat_toNat]
  rintro (h | h | h)
  · exact hexText_ne_nil 15 m.toNat h
  · rw [hall] at h
    cases h
  · rw [hvalue] at h
    exact absurd m.toNat_lt (Nat.not_lt.2 h)

theorem fromStrRadix_tab (s : Chars) : fromStrRadix 16 ('\t' :: s) = none := by
  rw [fromStrRadix, if_pos]
  exact .inr (.inl rfl)

theorem toNat_signalBit (h : 1 ≤ signum) (h' : signum ≤ 64) :
    (signalBit signum).toNat = 2 ^ (signum.toNat - 1) := by
  have h1 : 1 ≤ signum.toNat := h
  have h64 : signum.toNat ≤ 64 := h'
  have hsub : (signum - 1).toNat = signum.toNat - 1 := UInt32.toNat_sub_of_le signum 1 h
  have hlt : 2 ^ (signum.toNat - 1) < 2 ^ 64 := Nat.pow_lt_pow_right (by decide) (by omega)
  rw [signalBit, UInt64.toNat_shiftLeft, UInt32.toNat_toUInt64, hsub,
    Nat.mod_eq_of_lt (by omega : signum.toNat - 1 < 64), UInt64.toNat_one, Nat.one_shiftLeft,
    Nat.mod_eq_of_lt hlt]

theorem signalBit_and (m : UInt64) (h : 1 ≤ signum) (h' : signum ≤ 64) :
    m &&& signalBit signum = signalBit signum ↔ m.toNat.testBit (signum.toNat - 1) = true := by
  rw [← UInt64.toNat_inj, UInt64.toNat_and, toNat_signalBit h h', Nat.and_two_pow]
  cases m.toNat.testBit (signum.toNat - 1) with
  | false => simp [(Nat.two_pow_pos (signum.toNat - 1)).ne]
  | true => simp

theorem splitOn_sigCgt {x : Chars} (h : ':' ∉ x) :
    (sigCgt ++ x).splitOn ':' = ["SigCgt".toList, x] := by
  have hs : sigCgt ++ x = "SigCgt".toList ++ ':' :: x := rfl
  rw [hs, List.splitOn_append_cons_self_of_not_mem (by decide), List.splitOn_eq_singleton h]

theorem KernelStatus.splitOn_maskLine (f : KernelStatus) :
    f.maskLine.splitOn ':' = ["SigCgt".toList, '\t' :: hexText 16 f.caught.toNat] := by
  have hd : ':' ∉ '\t' :: hexText 16 f.caught.toNat := by
    intro h
    rcases List.mem_cons.1 h with h | h
    · exact absurd h (by decide)
    · exact notMem_hexText (by decide) _ _ h
  rw [KernelStatus.maskLine, splitOn_sigCgt hd]

/-- The tab in front of the digits is no digit. -/
theorem KernelStatus.readMask_maskLine (f : KernelStatus) (sigMask : UInt64) :
    readMask sigMask f.maskLine = false := by
  rw [readMask, f.splitOn_maskLine]
  simp only [fromStrRadix_tab]

theorem prefix_of_stripReturn (l : Chars) : stripReturn l <+: l := by
  rw [stripReturn]
  split
  · exact List.dropLast_prefix l
  · exact List.prefix_rfl

theorem KernelStatus.stripReturn_maskLine (f : KernelStatus) :
    stripReturn f.maskLine = f.maskLine := by
  have hlast : f.maskLine.getLast? = some (Nat.digitChar (f.caught.toNat % 16)) := by
    rw [KernelStatus.maskLine, hexText, ← List.cons_append, ← List.append_assoc]
    exact List.getLast?_concat
  have hdigit (d : Fin 16) : Nat.digitChar d ≠ '\r' := by
    revert d
    decide
  rw [stripReturn, if_neg]
  rw [hlast]
  exact fun h => hdigit ⟨_, Nat.mod_lt _ (by decide)⟩ (Option.some.inj h)

theorem KernelStatus.read_eq (f : KernelStatus) : f.read =
    ((f.before.map stripReturn).map some) ++
      some f.maskLine :: ((f.after.map stripReturn).map some) := by
  have hline : '\n' ∉ f.maskLine := by
    intro h
    rcases List.mem_append.1 h with h | h
    · exact absurd h (by decide)
    · rcases List.mem_cons.1 h with h | h
      · exact absurd h (by decide)
      · exact notMem_hexText (by decide) _ _ h
  have hall : ∀ l ∈ f.before ++ f.maskLine :: f.after, '\n' ∉ l := by
    intro l hl
    rcases List.mem_append.1 hl with hl | hl
    · exact (f.before_ok l hl).1
    · rcases List.mem_cons.1 hl with rfl | hl
      · exact hline
      · exact f.after_ok l hl
  rw [KernelStatus.read, KernelStatus.text, lines_fileText hall, List.map_append, List.map_cons,
    f.stripReturn_maskLine, List.map_append, List.map_cons]

/-- The lines before the mask are passed over. -/
theorem scanStatus_append (sigMask : UInt64) {ls : List Chars} (h : ∀ l ∈ ls, ¬sigCgt <+: l)
    (rest : List (Option Chars)) :
    scanStatus sigMask ((ls.map stripReturn).map some ++ rest) = scanStatus sigMask rest := by
  induction ls with
  | nil => rfl
  | cons l ls ih =>
    have hl : ¬sigCgt <+: stripReturn l := fun hp =>
      h l List.mem_cons_self (hp.trans (prefix_of_stripReturn l))
    rw [List.map_cons, List.map_cons, List.cons_append, scanStatus, if_neg hl]
    exact ih fun m hm => h m (List.mem_cons_of_mem _ hm)

/-- No mask is ever read. -/
theorem KernelStatus.isSignalHandled_read (f : KernelStatus) (signum : UInt32) :
    isSignalHandled (some f.read) signum = false := by
  have hp : sigCgt <+: f.maskLine := List.prefix_append _ _
  have hb : ∀ l ∈ f.before, ¬sigCgt <+: l := fun l hl => (f.before_ok l hl).2
  rw [isSignalHandled, f.read_eq, scanStatus_append _ hb, scanStatus, if_pos hp,
    f.readMask_maskLine]

/-- Without the tab the bit of the signal decides. -/
theorem KernelStatus.readMask_untabbed (f : KernelStatus) (h : 1 ≤ signum) (h' : signum ≤ 64) :
    readMask (signalBit signum) (sigCgt ++ hexText 16 f.caught.toNat) = f.catches signum := by
  rw [readMask, splitOn_sigCgt (notMem_hexText (by decide) _ _)]
  simp only [fromStrRadix_hexText, signalBit_and f.caught h h', KernelStatus.catches,
    Bool.decide_eq_true]

theorem doSignalProcess_eq {s : Server} (hp : s.findProcess cid eid true = .ok (pid, p))
    (hs : fromCInt signum = some sig) (g : HandlerGuest) :
    doSignalProcess cid eid signum g s = (delivered (g.kill pid
      (if p.init && sig = sigterm && !g.signalHandled then sigkill else sig)), s) := by
  have hf : (Act.read (Server.findProcess · cid eid true) : Act Server ErrorKind _) s =
      (.ok (.ok (pid, p)), s) := by
    rw [Act.read_apply, hp]
  rw [doSignalProcess, Act.bind_ok hf, Act.bind_ok (Act.lift_apply _)]
  simp only [hs]
  rw [Act.bind_apply, Act.lift_apply, delivered]
  cases syscall (g.kill pid
    (if p.init && sig = sigterm && !g.signalHandled then sigkill else sig)) with
  | ok _ => rfl
  | err e => rfl
  | panic => rfl

/-- What the agent takes a process for is true exactly of the signals that it does not catch. -/
theorem signalServed_iff (f : KernelStatus) (signum : UInt32) :
    SignalServed f signum ↔ f.catches signum = false := by
  constructor
  · intro h
    rw [← h.handled, f.isSignalHandled_read]
  · intro h
    apply SignalServed.mk
    · rw [f.isSignalHandled_read, h]
    · intro s cid eid g pid p sig hp hs hg
      rw [f.isSignalHandled_read] at hg
      rw [doSignalProcess_eq hp hs, hg, h]
      simp only [Bool.not_false, Bool.and_true, Bool.and_eq_true, decide_eq_true_eq, and_true]

/-- An init process with a handler for `SIGTERM` alone. -/
def termHandler : KernelStatus where
  before := ["Name:\tsh".toList, "Pid:\t7".toList]
  caught := 0x4000
  after := ["CapInh:\t0000000000000000".toList]
  before_ok := by decide
  after_ok := by decide

theorem termHandler_not_served :
    ¬ ∀ (f : KernelStatus) (signum : UInt32), 1 ≤ signum → signum ≤ 64 → SignalServed f signum := by
  intro h
  have hc := (h termHandler 15 (by decide) (by decide)).handled
  rw [termHandler.isSignalHandled_read] at hc
  exact absurd hc (by decide)

end KataAgent
