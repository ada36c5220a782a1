import KataAgent.CgroupFiles
import KataAgent.RemovalVariants

namespace KataAgent
open Fallible
set_option autoImplicit true

/-- The output of `ps`: a line with a `PID` column, and lines that are blank or have a number in
that column. -/
structure PsOutput where
  header : Chars
  rows : List Chars
  pidIndex : Nat
  column : (splitWhitespace header).findIdx? (· = ['P', 'I', 'D']) = some pidIndex
  lines : ∀ line ∈ header :: rows, '\n' ∉ line
  numeric : ∀ row ∈ rows, row.all isWhitespace = false →
    ((splitWhitespace row)[pidIndex]?.bind parseI32).isSome

def PsOutput.text (out : PsOutput) : String :=
  String.ofList (['\n'].intercalate (out.header :: out.rows))

/-- The number in the `PID` column of a line. -/
def PsOutput.pid (out : PsOutput) (row : Chars) : Option Int :=
  (pidField out.pidIndex row).bind parseI32

/-- The line is that of a process in `pids`. -/
def PsOutput.Selects (out : PsOutput) (pids : List Int) (row : Chars) : Prop :=
  ∃ pid ∈ out.pid row, pid ∈ pids

instance {out : PsOutput} {pids : List Int} {row : Chars} : Decidable (out.Selects pids row) :=
  inferInstanceAs (Decidable (∃ pid ∈ out.pid row, pid ∈ pids))

/-- The lines of the table for the processes in `pids`. -/
def PsOutput.table (out : PsOutput) (pids : List Int) : List Chars :=
  out.header :: out.rows.filter fun row => out.Selects pids row

section
variable {out : PsOutput} {pids : List Int} {row : Chars} {rows : List Chars}

theorem PsOutput.splitOn_text : out.text.toList.splitOn '\n' = out.header :: out.rows := by
  rw [PsOutput.text, String.toList_ofList]
  exact List.splitOn_intercalate '\n' out.lines (List.cons_ne_nil _ _)

/-- A pid is in the list at most once. -/
theorem flatMap_filter_eq {pid : Int} (hn : pids.Nodup) (line : Chars) :
    (pids.filter (· = pid)).flatMap (fun _ => line) = if pid ∈ pids then line else [] := by
  rw [List.filter_eq, hn.count]
  split
  · simp
  · simp

theorem PsOutput.selectLines_eq (hn : pids.Nodup)
    (hrows : ∀ row ∈ rows, ∀ field ∈ pidField out.pidIndex row, (parseI32 field).isSome) :
    selectLines pids out.pidIndex rows =
      .ok (rows.filter fun row => out.Selects pids row).flatten := by
  induction rows with
  | nil => rfl
  | cons row rows ih =>
    obtain ⟨hrow, hrows⟩ := List.forall_mem_cons.1 hrows
    rw [selectLines]
    cases hf : pidField out.pidIndex row with
    | none =>
      have hs : ¬ out.Selects pids row := by
        rintro ⟨pid, hp, -⟩
        rw [PsOutput.pid, hf] at hp
        cases hp
      rw [List.filter_cons, if_neg (by simpa using hs)]
      exact ih hrows
    | some field =>
      obtain ⟨pid, hp⟩ := Option.isSome_iff_exists.1 (hrow field hf)
      have hpid : out.pid row = some pid := by rw [PsOutput.pid, hf, Option.bind_some, hp]
      have hs : out.Selects pids row ↔ pid ∈ pids := by
        rw [PsOutput.Selects, hpid]
        simp
      dsimp only
      rw [hp, ih hrows]
      change Outcome.ok (_ ++ _) = _
      rw [flatMap_filter_eq hn]
      by_cases hm : pid ∈ pids
      · rw [if_pos hm, List.filter_cons, if_pos (decide_eq_true (hs.2 hm)), List.flatten_cons]
      · rw [if_neg hm, List.filter_cons, if_neg (by simpa using mt hs.1 hm), List.nil_append]

/-- What the handler sends: the lines one after the other. -/
theorem PsOutput.selectProcesses_eq (out : PsOutput) (hn : pids.Nodup) :
    selectProcesses pids out.text =
      .ok (.processList (String.ofList (out.table pids).flatten)) := by
  have hrows : ∀ row ∈ out.rows, ∀ field ∈ pidField out.pidIndex row,
      (parseI32 field).isSome := by
    intro row hrow field hf
    rw [pidField] at hf
    split at hf
    · cases hf
    · rename_i hblank
      have hp := out.numeric row hrow (Bool.eq_false_iff.2 hblank)
      rw [Option.mem_def.1 hf] at hp
      exact hp
  rw [selectProcesses, out.splitOn_text]
  dsimp only
  rw [out.column]
  dsimp only
  rw [PsOutput.selectLines_eq hn hrows]
  rfl

/-- Lines one after the other are one line. -/
theorem splitOn_flatten_eq_iff {header : Chars} {ls : List Chars}
    (h : ∀ line ∈ header :: ls, '\n' ∉ line) :
    (header :: ls).flatten.splitOn '\n' = header :: ls ↔ ls = [] := by
  have hn : '\n' ∉ (header :: ls).flatten := by
    rw [List.mem_flatten]
    rintro ⟨line, hl, hm⟩
    exact h line hl hm
  rw [List.splitOn_eq_singleton hn, List.cons.injEq]
  constructor
  · intro h
    exact h.2.symm
  · rintro rfl
    exact ⟨List.flatten_singleton, rfl⟩

variable {s : Server} {g : HandlerGuest} {ctr : LinuxContainer} {cid : String} {args : List String}

theorem listProcesses_table (hc : s.container cid = some ctr) (hn : ctr.processes.Nodup)
    (hps : g.ps (if args = [] then ["-ef"] else args) = .printed out.text) :
    (listProcesses cid "table" args g s).1 =
      .ok (.processList (String.ofList (out.table ctr.processes).flatten)) := by
  rw [listProcesses, Act.bind_ok (Act.read_apply _), hc]
  dsimp only
  rw [if_neg (by decide), if_neg (not_not.2 rfl), hps]
  dsimp only
  rw [out.selectProcesses_eq hn]
  rfl

theorem PsOutput.table_eq_header_iff :
    (out.rows.filter fun row => out.Selects pids row) = [] ↔
      ∀ row ∈ out.rows, ¬ out.Selects pids row := by
  simp [List.filter_eq_nil_iff]

theorem PsOutput.table_lines : ∀ line ∈ out.table pids, '\n' ∉ line := by
  intro line hl
  rcases List.mem_cons.1 hl with rfl | hl
  · exact out.lines _ List.mem_cons_self
  · exact out.lines _ (List.mem_cons_of_mem _ (List.mem_of_mem_filter hl))

/-- The reply has the lines of the table if and only if no process of the container has one. -/
theorem listProcesses_lines_iff (s : Server) (g : HandlerGuest) (cid : String)
    (args : List String) (ctr : LinuxContainer) (out : PsOutput)
    (hc : s.container cid = some ctr) (hn : ctr.processes.Nodup)
    (hps : g.ps (if args = [] then ["-ef"] else args) = .printed out.text) :
    (∃ text, (listProcesses cid "table" args g s).1 = .ok (.processList text) ∧
        text.toList.splitOn '\n' = out.table ctr.processes) ↔
      ∀ row ∈ out.rows, ¬ out.Selects ctr.processes row := by
  have hl : ∀ line ∈ out.table ctr.processes, '\n' ∉ line := out.table_lines
  rw [← PsOutput.table_eq_header_iff, ← splitOn_flatten_eq_iff hl, listProcesses_table hc hn hps]
  constructor
  · rintro ⟨text, h, hl⟩
    cases h
    rw [String.toList_ofList] at hl
    exact hl
  · intro hl
    refine ⟨_, rfl, ?_⟩
    rw [String.toList_ofList]
    exact hl

end

/-- A process beside those of the container, and the empty end of the output. -/
def strangerTable : PsOutput where
  header := "PID CMD".toList
  rows := ["8 sh".toList, []]
  pidIndex := 0
  column := by decide
  lines := by decide
  numeric := by decide

/-- The init process of the container. -/
def initTable : PsOutput where
  header := "PID CMD".toList
  rows := ["9 sh".toList, []]
  pidIndex := 0
  column := by decide
  lines := by decide
  numeric := by decide

def PsOutput.handlers (out : PsOutput) : HandlerGuest :=
  { willingHandlers with ps := fun _ => .printed out.text }

theorem listProcesses_stranger : ∃ text,
    (listProcesses "pod" "table" [] strangerTable.handlers servedPod).1 =
      .ok (.processList text) ∧
    text.toList.splitOn '\n' = strangerTable.table [9] :=
  (listProcesses_lines_iff servedPod strangerTable.handlers "pod" [] _ strangerTable rfl
    (List.nodup_singleton 9) rfl).2 (by decide)

/-- The line of a process is run together with the header. -/
theorem listProcesses_joined : ¬ ∃ text,
    (listProcesses "pod" "table" [] initTable.handlers servedPod).1 = .ok (.processList text) ∧
    text.toList.splitOn '\n' = initTable.table [9] := by
  rintro ⟨text, h, hl⟩
  rw [listProcesses_table rfl (List.nodup_singleton 9) rfl] at h
  cases h
  rw [String.toList_ofList] at hl
  exact absurd ((splitOn_flatten_eq_iff initTable.table_lines).1 hl) (by decide)

end KataAgent
