import KataAgent.Table

namespace NamedPipe
set_option autoImplicit true

/-- The state of one opener: in `open`, where it may have to wait until the other side's counter
has moved on, or past it. -/
inductive End where
  | opening (waits : Option Nat)
  | held
  deriving DecidableEq, Repr

/-- The openers of one side, and how many there have been. -/
structure Side (κ : Type) where
  ends : Table κ End
  counter : Nat
  deriving DecidableEq

section
variable [DecidableEq κ] [DecidableEq ι] {x : Side κ} {y : Side ι} {i j : κ} {k : ι}

def Side.empty : Side κ := ⟨∅, 0⟩

/-- An opener waits where nobody is on the other side. -/
def Side.come (x : Side κ) (y : Side ι) (i : κ) : Side κ where
  ends := x.ends.insert i (.opening (if y.ends = ∅ then some y.counter else none))
  counter := x.counter + 1

/-- The `open` returns, also when those who came have left again. -/
def Side.Ready (x : Side κ) (y : Side ι) (i : κ) : Prop :=
  ∃ waits ∈ (x.ends.lookup i).bind (fun e => match e with
    | .opening waits => some waits
    | .held => none), waits ≠ some y.counter

instance : Decidable (Side.Ready x y i) := inferInstanceAs (Decidable (∃ _ ∈ _, _))

def Side.enter (x : Side κ) (i : κ) : Side κ := { x with ends := x.ends.insert i .held }

def Side.leave (x : Side κ) (i : κ) : Side κ := { x with ends := x.ends.erase i }

omit [DecidableEq ι] in
theorem Side.ready_iff :
    x.Ready y i ↔ ∃ waits, x.ends.lookup i = some (.opening waits) ∧ waits ≠ some y.counter := by
  constructor
  · rintro ⟨waits, hw, hne⟩
    obtain ⟨e, he, hw⟩ := Option.bind_eq_some_iff.1 hw
    cases e with
    | opening w =>
      cases hw
      exact ⟨_, he, hne⟩
    | held => cases hw
  · rintro ⟨waits, he, hne⟩
    exact ⟨waits, Option.bind_eq_some_iff.2 ⟨_, he, rfl⟩, hne⟩

theorem Side.ne_empty (h : x.ends.lookup i = some e) : x.ends ≠ ∅ := by
  intro hn
  rw [hn] at h
  cases h

theorem Side.exists_lookup (h : x.ends ≠ ∅) : ∃ i e, x.ends.lookup i = some e := by
  obtain ⟨i, hi⟩ : ∃ i, x.ends.lookup i ≠ none :=
    not_forall.1 fun hn => h (Finmap.ext_lookup hn)
  exact ⟨i, Option.ne_none_iff_exists'.1 hi⟩

/-- One who waits has missed nobody, and one who need not wait was met by somebody. -/
structure Side.Faces (x : Side κ) (y : Side ι) : Prop where
  came : ∀ {i e}, x.ends.lookup i = some e → 0 < x.counter
  waits : ∀ {i n}, x.ends.lookup i = some (.opening (some n)) → n ≤ y.counter ∧
    (n = y.counter → ∀ k, y.ends.lookup k = none)
  met : ∀ {i}, x.ends.lookup i = some (.opening none) → 0 < y.counter
  entered : ∀ {i}, x.ends.lookup i = some .held → 0 < y.counter

theorem Side.empty_faces : (Side.empty : Side κ).Faces (Side.empty : Side ι) where
  came h := by cases h
  waits h := by cases h
  met h := by cases h
  entered h := by cases h

theorem Side.Faces.come (h : x.Faces y) (h' : y.Faces x) (i : κ) : (x.come y i).Faces y where
  came _ := Nat.succ_pos _
  waits := by
    intro j n hj
    rcases Table.of_lookup_insert hj with ⟨-, he⟩ | ⟨-, hj⟩
    · split at he
      · rename_i hy
        cases he
        refine ⟨le_refl _, fun _ k => ?_⟩
        rw [hy]
        rfl
      · cases he
    · exact h.waits hj
  met := by
    intro j hj
    rcases Table.of_lookup_insert hj with ⟨-, he⟩ | ⟨-, hj⟩
    · split at he
      · cases he
      · rename_i hy
        obtain ⟨k, e, he⟩ := Side.exists_lookup hy
        exact h'.came he
    · exact h.met hj
  entered := by
    intro j hj
    rcases Table.of_lookup_insert hj with ⟨-, he⟩ | ⟨-, hj⟩
    · cases he
    · exact h.entered hj

/-- Whoever comes ends the waiting on the other side. -/
theorem Side.Faces.comeOther (h : y.Faces x) (i : κ) : y.Faces (x.come y i) where
  came := h.came
  waits := by
    intro k n hk
    have hle := (h.waits hk).1
    refine ⟨hle.trans (Nat.le_succ _), fun hn => ?_⟩
    rw [hn] at hle
    exact absurd hle (Nat.not_succ_le_self _)
  met _ := Nat.succ_pos _
  entered _ := Nat.succ_pos _

theorem Side.Faces.enter (h : x.Faces y) (hr : x.Ready y i) : (x.enter i).Faces y := by
  obtain ⟨waits, hi, hne⟩ := Side.ready_iff.1 hr
  have hpos : 0 < y.counter := by
    cases waits with
    | none => exact h.met hi
    | some n =>
      have hle := (h.waits hi).1
      have hn : n ≠ y.counter := fun hn => hne (congrArg some hn)
      omega
  constructor
  case came =>
    intro j e hj
    rcases Table.of_lookup_insert hj with ⟨-, -⟩ | ⟨-, hj⟩
    · exact h.came hi
    · exact h.came hj
  case waits =>
    intro j n hj
    rcases Table.of_lookup_insert hj with ⟨-, he⟩ | ⟨-, hj⟩
    · cases he
    · exact h.waits hj
  case met => exact fun _ => hpos
  case entered => exact fun _ => hpos

theorem Side.Faces.enterOther (h : y.Faces x) (hr : x.Ready y i) : y.Faces (x.enter i) where
  came := h.came
  waits := by
    intro k n hk
    obtain ⟨hle, hnone⟩ := h.waits hk
    refine ⟨hle, fun hn j => ?_⟩
    obtain ⟨waits, hi, -⟩ := Side.ready_iff.1 hr
    cases hi.symm.trans (hnone hn i)
  met := h.met
  entered := h.entered

theorem Side.Faces.leave (h : x.Faces y) (i : κ) : (x.leave i).Faces y where
  came hj := h.came (Table.of_lookup_erase hj).2
  waits hj := h.waits (Table.of_lookup_erase hj).2
  met hj := h.met (Table.of_lookup_erase hj).2
  entered hj := h.entered (Table.of_lookup_erase hj).2

theorem Side.Faces.leaveOther (h : y.Faces x) (i : κ) : y.Faces (x.leave i) where
  came := h.came
  waits := by
    intro k n hk
    obtain ⟨hle, hnone⟩ := h.waits hk
    refine ⟨hle, fun hn j => ?_⟩
    rw [Side.leave, Table.lookup_erase]
    split
    · rfl
    · exact hnone hn j
  met := h.met
  entered := h.entered

/-- One in its `open` is ready as soon as somebody is on the other side. -/
theorem Side.Faces.ready {o : Option Nat} (h : x.Faces y)
    (hi : x.ends.lookup i = some (.opening o)) (hk : y.ends.lookup k = some e) :
    x.Ready y i := by
  refine Side.ready_iff.2 ⟨o, hi, ?_⟩
  rintro rfl
  cases hk.symm.trans ((h.waits hi).2 rfl k)

/-- And one who waits with nobody there is not. -/
theorem Side.come_not_ready (h : y.ends = ∅) : ¬ (x.come y i).Ready y i := by
  rw [Side.ready_iff]
  rintro ⟨waits, hi, hne⟩
  rw [Side.come, Table.lookup_insert, if_pos rfl, if_pos h] at hi
  cases hi
  exact hne rfl

end

/-- A named pipe, with its readers and writers and the bytes in it. -/
structure Fifo (ρ ω : Type) where
  readers : Side ρ
  writers : Side ω
  bytes : Nat
  deriving DecidableEq

variable [DecidableEq ρ] [DecidableEq ω] {p q : Fifo ρ ω} {r : ρ} {w : ω}

def Fifo.empty : Fifo ρ ω := ⟨.empty, .empty, 0⟩

/-- What is in a pipe that nobody has open is lost. -/
def Fifo.flush (p : Fifo ρ ω) : Fifo ρ ω :=
  if p.readers.ends = ∅ ∧ p.writers.ends = ∅ then { p with bytes := 0 } else p

def Fifo.comeReader (p : Fifo ρ ω) (r : ρ) : Fifo ρ ω :=
  { p with readers := p.readers.come p.writers r }

def Fifo.comeWriter (p : Fifo ρ ω) (w : ω) : Fifo ρ ω :=
  { p with writers := p.writers.come p.readers w }

def Fifo.enterReader (p : Fifo ρ ω) (r : ρ) : Option (Fifo ρ ω) :=
  if p.readers.Ready p.writers r then some { p with readers := p.readers.enter r } else none

def Fifo.enterWriter (p : Fifo ρ ω) (w : ω) : Option (Fifo ρ ω) :=
  if p.writers.Ready p.readers w then some { p with writers := p.writers.enter w } else none

def Fifo.leaveReader (p : Fifo ρ ω) (r : ρ) : Fifo ρ ω :=
  Fifo.flush { p with readers := p.readers.leave r }

def Fifo.leaveWriter (p : Fifo ρ ω) (w : ω) : Fifo ρ ω :=
  Fifo.flush { p with writers := p.writers.leave w }

/-- A write of one byte, which fails without a reader. -/
def Fifo.write (p : Fifo ρ ω) : Option (Fifo ρ ω) :=
  if p.readers.ends = ∅ then none else some { p with bytes := p.bytes + 1 }

/-- A read of one byte, which waits where there is none as long as there is a writer. -/
def Fifo.read (p : Fifo ρ ω) : Option (Fifo ρ ω) :=
  if 0 < p.bytes ∨ p.writers.ends = ∅ then some { p with bytes := p.bytes - 1 } else none

structure Fifo.Sound (p : Fifo ρ ω) : Prop where
  readers : p.readers.Faces p.writers
  writers : p.writers.Faces p.readers

@[simp] theorem Fifo.flush_readers (p : Fifo ρ ω) : p.flush.readers = p.readers := by
  rw [Fifo.flush]
  split <;> rfl

@[simp] theorem Fifo.flush_writers (p : Fifo ρ ω) : p.flush.writers = p.writers := by
  rw [Fifo.flush]
  split <;> rfl

theorem Fifo.flush_bytes_le (p : Fifo ρ ω) : p.flush.bytes ≤ p.bytes := by
  rw [Fifo.flush]
  split
  · exact Nat.zero_le _
  · exact le_refl _

theorem Fifo.empty_sound : (Fifo.empty : Fifo ρ ω).Sound :=
  ⟨Side.empty_faces, Side.empty_faces⟩

theorem Fifo.Sound.flush (h : p.Sound) : p.flush.Sound := by
  constructor
  · rw [Fifo.flush_readers, Fifo.flush_writers]
    exact h.readers
  · rw [Fifo.flush_readers, Fifo.flush_writers]
    exact h.writers

theorem Fifo.Sound.comeReader (h : p.Sound) (r : ρ) : (p.comeReader r).Sound :=
  ⟨h.readers.come h.writers r, h.writers.comeOther r⟩

theorem Fifo.Sound.comeWriter (h : p.Sound) (w : ω) : (p.comeWriter w).Sound :=
  ⟨h.readers.comeOther w, h.writers.come h.readers w⟩

omit [DecidableEq ω] in
theorem Fifo.enterReader_eq_some : p.enterReader r = some q ↔
    p.readers.Ready p.writers r ∧ q = { p with readers := p.readers.enter r } := by
  rw [Fifo.enterReader, Option.ite_none_right_eq_some, Option.some.injEq]
  exact and_congr_right fun _ => eq_comm

omit [DecidableEq ρ] in
theorem Fifo.enterWriter_eq_some : p.enterWriter w = some q ↔
    p.writers.Ready p.readers w ∧ q = { p with writers := p.writers.enter w } := by
  rw [Fifo.enterWriter, Option.ite_none_right_eq_some, Option.some.injEq]
  exact and_congr_right fun _ => eq_comm

omit [DecidableEq ω] in
theorem Fifo.write_eq_some : p.write = some q ↔
    p.readers.ends ≠ ∅ ∧ q = { p with bytes := p.bytes + 1 } := by
  rw [Fifo.write, Option.ite_none_left_eq_some, Option.some.injEq]
  exact and_congr_right fun _ => eq_comm

omit [DecidableEq ρ] in
theorem Fifo.read_eq_some : p.read = some q ↔
    (0 < p.bytes ∨ p.writers.ends = ∅) ∧ q = { p with bytes := p.bytes - 1 } := by
  rw [Fifo.read, Option.ite_none_right_eq_some, Option.some.injEq]
  exact and_congr_right fun _ => eq_comm

theorem Fifo.Sound.enterReader (h : p.Sound) (hq : p.enterReader r = some q) : q.Sound := by
  obtain ⟨hr, rfl⟩ := Fifo.enterReader_eq_some.1 hq
  exact ⟨h.readers.enter hr, h.writers.enterOther hr⟩

theorem Fifo.Sound.enterWriter (h : p.Sound) (hq : p.enterWriter w = some q) : q.Sound := by
  obtain ⟨hr, rfl⟩ := Fifo.enterWriter_eq_some.1 hq
  exact ⟨h.readers.enterOther hr, h.writers.enter hr⟩

theorem Fifo.Sound.leaveReader (h : p.Sound) (r : ρ) : (p.leaveReader r).Sound :=
  Fifo.Sound.flush ⟨h.readers.leave r, h.writers.leaveOther r⟩

theorem Fifo.Sound.leaveWriter (h : p.Sound) (w : ω) : (p.leaveWriter w).Sound :=
  Fifo.Sound.flush ⟨h.readers.leaveOther w, h.writers.leave w⟩

theorem Fifo.Sound.write (h : p.Sound) (hq : p.write = some q) : q.Sound := by
  obtain ⟨-, rfl⟩ := Fifo.write_eq_some.1 hq
  exact ⟨h.readers, h.writers⟩

theorem Fifo.Sound.read (h : p.Sound) (hq : p.read = some q) : q.Sound := by
  obtain ⟨-, rfl⟩ := Fifo.read_eq_some.1 hq
  exact ⟨h.readers, h.writers⟩

end NamedPipe
