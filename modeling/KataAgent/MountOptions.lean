import KataAgent.LastWrite
import KataAgent.RootfsSetup
import KataAgent.Sandbox

namespace KataAgent
open LastWrite
set_option autoImplicit true

/-- Whether the option of an entry of `OPTIONS` sets or clears the bit, if its mask has it. -/
def entryBit (i : Nat) (e : Bool × MsFlags) : Option Bool :=
  if e.2.toNat.testBit i then some (!e.1) else none

/-- What an option does to the bit. -/
def optionBit (i : Nat) (o : String) : Option Bool := (OPTIONS.lookup o).bind (entryBit i)

/-- The last option whose mask has the bit sets it. -/
def LastSets (options : List String) (i : Nat) : Prop :=
  ∃ before o after, options = before ++ o :: after ∧ optionBit i o = some true ∧
    ∀ x ∈ after, optionBit i x = none

def Unrecognised (o : String) : Prop := OPTIONS.lookup o = none

instance {o : String} : Decidable (Unrecognised o) := inferInstanceAs (Decidable (_ = _))

section
variable {options : List String} {i : Nat} {o : String} {flags : MsFlags} {e : Bool × MsFlags}

theorem testBit_toNat (flags : MsFlags) (i : Nat) :
    flags.toNat.testBit i = flags.toBitVec.getLsbD i := BitVec.testBit_toNat flags.toBitVec

theorem testBit_set (flags mask : MsFlags) (i : Nat) :
    (flags ||| mask).toNat.testBit i = (flags.toNat.testBit i || mask.toNat.testBit i) := by
  rw [UInt64.toNat_or, Nat.testBit_or]

theorem testBit_clear (flags mask : MsFlags) (i : Nat) :
    (flags &&& ~~~mask).toNat.testBit i = (flags.toNat.testBit i && !mask.toNat.testBit i) := by
  rw [testBit_toNat, testBit_toNat, testBit_toNat, UInt64.toBitVec_and, UInt64.toBitVec_not,
    BitVec.getLsbD_and, BitVec.getLsbD_not]
  by_cases h : i < 64
  · rw [decide_eq_true h, Bool.true_and]
  · rw [BitVec.getLsbD_of_ge flags.toBitVec i (Nat.le_of_not_lt h), Bool.false_and, Bool.false_and]

/-- One option of the loop of `parse_mount`. -/
def applyOption (flags : MsFlags) (o : String) : MsFlags :=
  match OPTIONS.lookup o with
  | some (true, fl) => flags &&& ~~~fl
  | some (false, fl) => flags ||| fl
  | none => flags

theorem testBit_applyOption (flags : MsFlags) (o : String) :
    (applyOption flags o).toNat.testBit i = (optionBit i o).getD (flags.toNat.testBit i) := by
  rw [applyOption, optionBit]
  cases OPTIONS.lookup o with
  | none => rfl
  | some e =>
    rcases e with ⟨clear, mask⟩
    rw [Option.bind_some, entryBit]
    cases clear with
    | false =>
      change (flags ||| mask).toNat.testBit i = _
      rw [testBit_set]
      cases mask.toNat.testBit i with
      | false => exact Bool.or_false _
      | true => exact Bool.or_true _
    | true =>
      change (flags &&& ~~~mask).toNat.testBit i = _
      rw [testBit_clear]
      cases mask.toNat.testBit i with
      | false => exact Bool.and_true _
      | true => exact Bool.and_false _

theorem testBit_parseMount (m : Mount) (i : Nat) :
    (parseMount m).1.toNat.testBit i = (lastWrite (optionBit i) m.options).getD false := by
  have h := register_foldl applyOption (fun flags => flags.toNat.testBit i)
    (fun flags o => testBit_applyOption flags o) 0 m.options
  rw [UInt64.toNat_zero, Nat.zero_testBit] at h
  exact h

theorem lastSets_iff : LastSets options i ↔ lastWrite (optionBit i) options = some true :=
  lastWrite_eq_some_iff.symm

theorem testBit_parseMount_iff (m : Mount) (i : Nat) :
    (parseMount m).1.toNat.testBit i = true ↔ LastSets m.options i := by
  rw [testBit_parseMount, lastSets_iff]
  cases lastWrite (optionBit i) m.options with
  | none => simp
  | some b => simp

theorem parseMount_data (m : Mount) :
    (parseMount m).2 = ",".intercalate (m.options.filter Unrecognised) := by
  have hf : (fun o => (OPTIONS.lookup o).isNone) = fun o => decide (Unrecognised o) := by
    funext o
    rw [Bool.eq_iff_iff, Option.isNone_iff_eq_none, decide_eq_true_iff]
    rfl
  rw [parseMount, hf]

/-- A bit is in the flags of `parse_mount` if and only if the last option that has it sets it, and
the options that are not in the table are the data. -/
theorem parseMount_spec (m : Mount) :
    (∀ i, (parseMount m).1.toNat.testBit i = true ↔ LastSets m.options i) ∧
      (parseMount m).2 = ",".intercalate (m.options.filter Unrecognised) :=
  ⟨testBit_parseMount_iff m, parseMount_data m⟩

/-- The flags table of the agent is that of `rustjail`. -/
theorem mountFlags_eq : mountFlags = OPTIONS.map fun e => (e.1, e.2.1, e.2.2.toNat) := by decide

theorem lookup_mountFlags (o : String) :
    mountFlags.lookup o = (OPTIONS.lookup o).map fun e => (e.1, e.2.toNat) := by
  rw [mountFlags_eq]
  generalize OPTIONS = table
  induction table with
  | nil => rfl
  | cons e table ih =>
    rw [List.map_cons, List.lookup_cons, List.lookup_cons, ih]
    cases o == e.1 with
    | false => rfl
    | true => rfl

/-- What one option adds to the flags of the agent. -/
def addedBits (o : String) : Nat := ((OPTIONS.lookup o).map fun e => e.2.toNat).getD 0

/-- What one option that is not in the table adds to the options of the agent. -/
def addedText (text o : String) : String :=
  if Unrecognised o then if text = "" then o else text ++ "," ++ o else text

/-- The loop of the agent on the two parts of its state. -/
theorem foldl_mountFlags (h : ∀ o ∈ options, o ≠ "") (bits : Nat) (text : String) :
    options.foldl (fun (flags, options) opt =>
      if opt = "" then (flags, options)
      else
        match mountFlags.lookup opt with
        | some (_, f) => (flags ||| f, options)
        | none => if options = "" then (flags, opt) else (flags, options ++ "," ++ opt))
      (bits, text) =
      (options.foldl (fun flags o => flags ||| addedBits o) bits,
        options.foldl addedText text) := by
  induction options generalizing bits text with
  | nil => rfl
  | cons o options ih =>
    obtain ⟨ho, hall⟩ := List.forall_mem_cons.1 h
    rw [List.foldl_cons, List.foldl_cons, List.foldl_cons, ← ih hall]
    congr 1
    dsimp only
    rw [if_neg ho, lookup_mountFlags, addedBits, addedText]
    cases hl : OPTIONS.lookup o with
    | none =>
      rw [if_pos (show Unrecognised o from hl)]
      by_cases ht : text = ""
      · simp [ht]
      · simp [ht]
    | some e =>
      have hu : ¬ Unrecognised o := fun hn => Option.some_ne_none e (hl.symm.trans hn)
      simp [hu]

theorem parseMountFlagsAndOptions_eq (h : ∀ o ∈ options, o ≠ "") :
    parseMountFlagsAndOptions options =
      (options.foldl (fun flags o => flags ||| addedBits o) 0, options.foldl addedText "") :=
  foldl_mountFlags h 0 ""

theorem testBit_addedBits : (addedBits o).testBit i = (optionBit i o).isSome := by
  rw [addedBits, optionBit]
  cases OPTIONS.lookup o with
  | none => exact Nat.zero_testBit i
  | some e =>
    rw [Option.map_some, Option.getD_some, Option.bind_some, entryBit]
    cases e.2.toNat.testBit i with
    | false => rfl
    | true => rfl

/-- The agent sets every bit that an option has. -/
theorem testBit_foldl_addedBits (bits : Nat) :
    (options.foldl (fun flags o => flags ||| addedBits o) bits).testBit i =
      (bits.testBit i || options.any fun o => (optionBit i o).isSome) := by
  induction options generalizing bits with
  | nil => exact (Bool.or_false _).symm
  | cons o options ih =>
    rw [List.foldl_cons, ih, Nat.testBit_or, testBit_addedBits, List.any_cons, Bool.or_assoc]

/-- Once there is text, what follows is joined to it. -/
theorem foldl_addedText_of_ne {text : String} (ht : text ≠ "") :
    options.foldl addedText text = ",".intercalate (text :: options.filter Unrecognised) := by
  induction options generalizing text with
  | nil => exact String.intercalate_singleton.symm
  | cons o options ih =>
    rw [List.foldl_cons, addedText, List.filter_cons]
    by_cases ho : Unrecognised o
    · have hne : text ++ "," ++ o ≠ "" := by
        rw [Ne, String.append_eq_empty_iff, String.append_eq_empty_iff]
        rintro ⟨⟨h, -⟩, -⟩
        exact ht h
      rw [if_pos ho, if_neg ht, if_pos (decide_eq_true ho), ih hne,
        String.intercalate_cons_append, String.intercalate_cons_cons]
    · rw [if_neg ho, if_neg (by simpa using ho), ih ht]

theorem foldl_addedText (h : ∀ o ∈ options, o ≠ "") :
    options.foldl addedText "" = ",".intercalate (options.filter Unrecognised) := by
  induction options with
  | nil => exact String.intercalate_nil.symm
  | cons o options ih =>
    obtain ⟨ho, hall⟩ := List.forall_mem_cons.1 h
    rw [List.foldl_cons, addedText, List.filter_cons]
    by_cases hu : Unrecognised o
    · rw [if_pos hu, if_pos rfl, if_pos (decide_eq_true hu), foldl_addedText_of_ne ho]
    · rw [if_neg hu, if_neg (by simpa using hu), ih hall]

/-- Every bit that some option has is set by the last option that has it. -/
def NeverCleared (options : List String) : Prop :=
  ∀ i, (∃ o ∈ options, optionBit i o ≠ none) → LastSets options i

theorem lastSets_touched (h : LastSets options i) : ∃ o ∈ options, optionBit i o ≠ none := by
  obtain ⟨before, o, after, rfl, ho, -⟩ := h
  refine ⟨o, List.mem_append_right before List.mem_cons_self, ?_⟩
  rw [ho]
  exact Option.some_ne_none true

/-- The two parsers agree on options if and only if the bits that these have end up set. -/
theorem parsers_agree_iff (m : Mount) (h : ∀ o ∈ m.options, o ≠ "") :
    ((parseMountFlagsAndOptions m.options).1 = (parseMount m).1.toNat ∧
      (parseMountFlagsAndOptions m.options).2 = (parseMount m).2) ↔ NeverCleared m.options := by
  have hbit (i : Nat) : (parseMountFlagsAndOptions m.options).1.testBit i = true ↔
      ∃ o ∈ m.options, optionBit i o ≠ none := by
    rw [parseMountFlagsAndOptions_eq h, testBit_foldl_addedBits, Nat.zero_testBit, Bool.false_or,
      List.any_eq_true]
    simp [Option.isSome_iff_ne_none]
  have htext : (parseMountFlagsAndOptions m.options).2 = (parseMount m).2 := by
    rw [parseMountFlagsAndOptions_eq h, parseMount_data m, foldl_addedText h]
  rw [and_iff_left htext]
  constructor
  · intro he i hi
    rw [← testBit_parseMount_iff, ← he, hbit]
    exact hi
  · intro hn
    apply Nat.eq_of_testBit_eq
    intro i
    rw [Bool.eq_iff_iff, hbit, testBit_parseMount_iff]
    exact ⟨hn i, lastSets_touched⟩

end

def plainMount (options : List String) : Mount := ⟨"/data".toList, "tmpfs", [], options⟩

theorem ro_mode_neverCleared : NeverCleared ["ro", "mode=755"] :=
  (parsers_agree_iff (plainMount ["ro", "mode=755"]) (by decide)).1 (by decide)

/-- The agent mounts read-only what is to be mounted for writing. -/
theorem rw_read_only : (∀ o ∈ ["rw"], o ≠ "") ∧
    (parseMountFlagsAndOptions ["rw"]).1 ≠ (parseMount (plainMount ["rw"])).1.toNat := by
  decide

end KataAgent
