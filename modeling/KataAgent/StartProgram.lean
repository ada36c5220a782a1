import KataAgent.ProcessRuntime

namespace KataAgent
set_option autoImplicit true

/-- The pipes of `execute_hook`. -/
def Slot.ofHook : Slot → Bool
  | .hookRfd _ => true
  | .hookWfd _ => true
  | _ => false

/-- The variables that `start` leaves open: the fields of the record, and the hooks' pipes. -/
def Slot.left : Slot → Bool
  | .parentStdin => true
  | .parentStdout => true
  | .parentStderr => true
  | .termMaster => true
  | .exitPipeR => true
  | .exitPipeW => true
  | slot => slot.ofHook

/-- Where an instruction stands in every program that has it; a loop is one stage. -/
def StartInstr.place : StartInstr → Nat × Nat
  | .openAt .parentConsoleSocket => (0, 0)
  | .openAt .consoleSocket => (0, 1)
  | .openAt .stdin => (1, 0)
  | .openAt .parentStdin => (1, 1)
  | .openAt .parentStdout => (1, 2)
  | .openAt .stdout => (1, 3)
  | .openAt .parentStderr => (1, 4)
  | .openAt .stderr => (1, 5)
  | .getContainer => (2, 0)
  | .makeFifo => (3, 0)
  | .openAt .fifofd => (3, 1)
  | .openAt (.toJoin i) => (4, i)
  | .openAt .pfd => (5, 0)
  | .openAt .cfd => (5, 1)
  | .openAt .crfd => (5, 2)
  | .openAt .pwfd => (5, 3)
  | .fork => (5, 4)
  | .close .cfd => (5, 5)
  | .close .crfd => (5, 6)
  | .openAt (.hookRfd i) => (6, 2 * i)
  | .openAt (.hookWfd i) => (6, 2 * i + 1)
  | .close .pfd => (7, 0)
  | .close .pwfd => (7, 1)
  | .close .fifofd => (8, 0)
  | .close .stdin => (9, 0)
  | .close .stderr => (9, 1)
  | .close .stdout => (9, 2)
  | .close (.toJoin i) => (10, i)
  | .openAt .exitPipeR => (11, 0)
  | .openAt .exitPipeW => (11, 1)
  | .openAt .termMaster => (12, 0)
  | .close .parentConsoleSocket => (12, 1)
  | .close .consoleSocket => (12, 2)
  | .close (.hookRfd i) => (13, 2 * i)
  | .close (.hookWfd i) => (13, 2 * i + 1)
  | .close .parentStdin => (13, 0)
  | .close .parentStdout => (13, 0)
  | .close .parentStderr => (13, 0)
  | .close .termMaster => (13, 0)
  | .close .exitPipeR => (13, 0)
  | .close .exitPipeW => (13, 0)

def StartInstr.before (i j : StartInstr) : Prop :=
  i.place.1 < j.place.1 ∨ i.place.1 = j.place.1 ∧ i.place.2 < j.place.2

instance : DecidableRel StartInstr.before :=
  fun _ _ => inferInstanceAs (Decidable (_ ∨ _ ∧ _))

theorem StartInstr.before.ne {i j : StartInstr} (h : i.before j) : i ≠ j := by
  rintro rfl
  rcases h with h | ⟨-, h⟩
  · exact absurd h (Nat.lt_irrefl _)
  · exact absurd h (Nat.lt_irrefl _)

theorem StartInstr.close_not_before (slot : Slot) :
    ¬ (StartInstr.close slot).before (.openAt slot) := by
  cases slot <;> simp [StartInstr.before, StartInstr.place]

theorem StartInstr.fork_not_before : ¬ StartInstr.fork.before .makeFifo := by decide

/-- The instructions of the stages from `lo` up to `hi`, in order. -/
structure Staged (lo hi : Nat) (is : List StartInstr) : Prop where
  ordered : is.Pairwise StartInstr.before
  stages : ∀ i ∈ is, lo ≤ i.place.1 ∧ i.place.1 < hi

theorem Staged.append (h : Staged lo mid is) (h' : Staged mid hi js) (hl : lo ≤ mid)
    (hh : mid ≤ hi) : Staged lo hi (is ++ js) where
  ordered := List.pairwise_append.2 ⟨h.ordered, h'.ordered, fun i hi j hj =>
    .inl ((h.stages i hi).2.trans_le (h'.stages j hj).1)⟩
  stages := by
    intro i hm
    rcases List.mem_append.1 hm with hm | hm
    · exact ⟨(h.stages i hm).1, (h.stages i hm).2.trans_le hh⟩
    · exact ⟨hl.trans (h'.stages i hm).1, (h'.stages i hm).2⟩

theorem Staged.nil : Staged lo hi [] := ⟨.nil, fun _ h => by cases h⟩

theorem Staged.onlyIf {c : Prop} [Decidable c] (h : Staged lo hi is) :
    Staged lo hi (onlyIf c is) := by
  rw [KataAgent.onlyIf]
  split
  · exact h
  · exact .nil

theorem Staged.of_range {f : Nat → StartInstr} {k : Nat} (hf : ∀ i, (f i).place = (k, i))
    (n : Nat) : Staged k (k + 1) ((List.range n).map f) where
  ordered := List.pairwise_map.2 (List.pairwise_lt_range.imp fun {i j} hij => by
    rw [StartInstr.before]
    rw [hf i, hf j]
    exact .inr ⟨rfl, hij⟩)
  stages := by
    intro i hm
    obtain ⟨x, -, rfl⟩ := List.mem_map.1 hm
    rw [hf x]
    exact ⟨le_refl k, Nat.lt_succ_self k⟩

theorem Staged.hooks (n : Nat) : Staged 6 7 ((List.range n).flatMap executeHook) where
  ordered := by
    apply List.pairwise_flatMap.2
    constructor
    · intro i _
      simp [executeHook, StartInstr.before, StartInstr.place]
    · apply List.pairwise_lt_range.imp
      intro i j hij x hx y hy
      have hlt : 2 * i + 1 < 2 * j := by omega
      simp only [executeHook, List.mem_cons, List.not_mem_nil, or_false] at hx hy
      rcases hx with rfl | rfl <;> rcases hy with rfl | rfl
      · exact .inr ⟨rfl, (Nat.lt_succ_self _).trans hlt⟩
      · exact .inr ⟨rfl, ((Nat.lt_succ_self _).trans hlt).trans (Nat.lt_succ_self _)⟩
      · exact .inr ⟨rfl, hlt⟩
      · exact .inr ⟨rfl, hlt.trans (Nat.lt_succ_self _)⟩
  stages := by
    intro i hm
    obtain ⟨x, -, hm⟩ := List.mem_flatMap.1 hm
    simp only [executeHook, List.mem_cons, List.not_mem_nil, or_false] at hm
    rcases hm with rfl | rfl
    · exact ⟨le_refl 6, Nat.lt_succ_self 6⟩
    · exact ⟨le_refl 6, Nat.lt_succ_self 6⟩

theorem StartRequest.program_staged (req : StartRequest) : Staged 0 13 req.program := by
  have h0 : Staged 0 1
      (onlyIf req.terminal [.openAt .parentConsoleSocket, .openAt .consoleSocket]) :=
    .onlyIf ⟨by decide, by decide⟩
  have h1 : Staged 1 2 [.openAt .stdin, .openAt .parentStdin, .openAt .parentStdout,
      .openAt .stdout, .openAt .parentStderr, .openAt .stderr] := ⟨by decide, by decide⟩
  have h2 : Staged 2 3 (onlyIf (req.init = false) [.getContainer]) :=
    .onlyIf ⟨by decide, by decide⟩
  have h3 : Staged 3 4 (onlyIf req.init [.makeFifo, .openAt .fifofd]) :=
    .onlyIf ⟨by decide, by decide⟩
  have h4 : Staged 4 5 ((List.range req.joins).map fun i => .openAt (.toJoin i)) :=
    .of_range (fun _ => rfl) _
  have h5 : Staged 5 6 [.openAt .pfd, .openAt .cfd, .openAt .crfd, .openAt .pwfd, .fork,
      .close .cfd, .close .crfd] := ⟨by decide, by decide⟩
  have h6 : Staged 6 7 (onlyIf req.init ((List.range req.hooks).flatMap executeHook)) :=
    .onlyIf (.hooks _)
  have h7 : Staged 7 8 [.close .pfd, .close .pwfd] := ⟨by decide, by decide⟩
  have h8 : Staged 8 9 (onlyIf req.init [.close .fifofd]) := .onlyIf ⟨by decide, by decide⟩
  have h9 : Staged 9 10 [.close .stdin, .close .stderr, .close .stdout] :=
    ⟨by decide, by decide⟩
  have h10 : Staged 10 11 ((List.range req.joins).map fun i => .close (.toJoin i)) :=
    .of_range (fun _ => rfl) _
  have h11 : Staged 11 12 [.openAt .exitPipeR, .openAt .exitPipeW] := ⟨by decide, by decide⟩
  have h12 : Staged 12 13 (onlyIf req.terminal
      [.openAt .termMaster, .close .parentConsoleSocket, .close .consoleSocket]) :=
    .onlyIf ⟨by decide, by decide⟩
  have hp : Staged 3 13 (startParent req.init req.terminal req.joins req.hooks) := by
    simp only [startParent, List.flatten_cons, List.flatten_nil, List.append_nil]
    exact h3.append (h4.append (h5.append (h6.append (h7.append (h8.append (h9.append (h10.append
      (h11.append h12 (by decide) (by decide)) (by decide) (by decide)) (by decide) (by decide))
      (by decide) (by decide)) (by decide) (by decide)) (by decide) (by decide)) (by decide)
      (by decide)) (by decide) (by decide)) (by decide) (by decide)
  exact (((h0.append h1 (by decide) (by decide)).append h2 (by decide) (by decide))).append hp
    (by decide) (by decide)

theorem mem_onlyIf {c : Prop} [Decidable c] {is : List StartInstr} :
    i ∈ onlyIf c is ↔ c ∧ i ∈ is := by
  rw [onlyIf]
  split
  · rename_i h
    simp [h]
  · rename_i h
    simp [h]

/-- Every variable is opened once, and unless it is left it is closed once, later; the fifo is made
before the `fork`. -/
structure Tidy (is : List StartInstr) : Prop where
  ordered : is.Pairwise StartInstr.before
  forks : .makeFifo ∈ is → .fork ∈ is
  closes : ∀ {slot}, .openAt slot ∈ is → slot.left ∨ .close slot ∈ is
  leaves : ∀ {slot}, .close slot ∈ is → slot.left = false

theorem StartRequest.program_tidy (req : StartRequest) : Tidy req.program where
  ordered := req.program_staged.ordered
  forks _ := by simp [StartRequest.program, startParent]
  closes := by
    intro slot
    cases slot <;> simp [StartRequest.program, processNew, startParent, executeHook, mem_onlyIf,
      Slot.left, Slot.ofHook]
  leaves := by
    intro slot
    cases slot <;> simp [StartRequest.program, processNew, startParent, executeHook, mem_onlyIf,
      Slot.left, Slot.ofHook]

theorem Tidy.tail (h : Tidy (i :: is)) : Tidy is where
  ordered := (List.pairwise_cons.1 h.ordered).2
  forks := by
    intro hm
    rcases List.mem_cons.1 (h.forks (List.mem_cons_of_mem i hm)) with rfl | hf
    · exact absurd ((List.pairwise_cons.1 h.ordered).1 _ hm) StartInstr.fork_not_before
    · exact hf
  closes := by
    intro slot hm
    rcases h.closes (List.mem_cons_of_mem i hm) with hl | hl
    · exact .inl hl
    rcases List.mem_cons.1 hl with rfl | hl
    · exact absurd ((List.pairwise_cons.1 h.ordered).1 _ hm) (StartInstr.close_not_before slot)
    · exact .inr hl
  leaves hm := h.leaves (List.mem_cons_of_mem i hm)

theorem Tidy.head_notMem (h : Tidy (i :: is)) : i ∉ is := fun hm =>
  ((List.pairwise_cons.1 h.ordered).1 i hm).ne rfl

end KataAgent
