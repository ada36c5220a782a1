import KataAgent.ChildControl
import KataAgent.Table
import Mathlib.Data.List.TakeWhile

namespace KataAgent
open Fallible
set_option autoImplicit true

/-- The variables of an environment. -/
abbrev Vars := Table (List Char) (List Char)

/-- A loop that splits entries at every `=` and takes the first two parts by their index. -/
def collectEnv (accepts : List Char → List Char → Bool) (vars : Vars) :
    List String → Outcome ErrorKind Vars
  | [] => .ok vars
  | e :: env =>
    match e.toList.splitOn '=' with
    | key :: value :: _ =>
      if accepts key value then collectEnv accepts (vars.insert key value) env else .panic
    | _ => .panic

/-- What `env::set_var` does not panic on. -/
def setVarAccepts (key value : List Char) : Bool :=
  key ≠ [] && !key.contains '=' && nulFree key && nulFree value

/-- The environment that `do_exec` sets up, once it has removed the variables of the agent. -/
def execVars (env : List String) : Outcome ErrorKind Vars := collectEnv setVarAccepts ∅ env

/-- The `env` map of `execute_hook`. -/
def hookMap (env : List String) : Outcome ErrorKind Vars := collectEnv (fun _ _ => true) ∅ env

/-- The environment of the hook's process, which inherits that of the agent. `spawn` fails, and the
`unwrap` after it, if there is a NUL. -/
def hookVars (inherited : Vars) (env : List String) : Outcome ErrorKind Vars := do
  let vars ← hookMap env
  if ∀ key ∈ vars.keys, nulFree key ∧ ∀ value ∈ vars.lookup key, nulFree value then
    .ok (vars ∪ inherited)
  else .panic

/-- The key and the complete value of an entry of the form `KEY=VALUE`. -/
def entryOf (entry : List Char) : Option (List Char × List Char) :=
  match entry.dropWhile (· ≠ '=') with
  | [] => none
  | _ :: value => some (entry.takeWhile (· ≠ '='), value)

/-- The complete value of the last entry for the key. -/
def lastValue : List String → List Char → Option (List Char)
  | [], _ => none
  | e :: env, key =>
    (lastValue env key).or (((entryOf e.toList).filter (·.1 = key)).map Prod.snd)

/-- What `split` leaves of a value. -/
def firstPart (value : List Char) : List Char := value.takeWhile (· ≠ '=')

/-- Each key of the entries has the value of its last entry, and the others what they had. -/
def Carries (vars : Vars) (env : List String) (result : Vars) : Prop :=
  ∀ key, result.lookup key = (lastValue env key).or (vars.lookup key)

/-- Both environments are made, and hold what the entries say. -/
def EnvKept (env : List String) : Prop :=
  (∃ vars, execVars env = .ok vars ∧ Carries ∅ env vars) ∧
    ∀ inherited, ∃ vars, hookVars inherited env = .ok vars ∧ Carries inherited env vars

/-- An entry that neither loop unwinds on. -/
def EntryAccepted (e : String) : Prop :=
  ∃ key value, entryOf e.toList = some (key, value) ∧ key ≠ [] ∧ nulFree key = true ∧
    nulFree (firstPart value) = true

variable {env : List String} {vars result : Vars} {accepts : List Char → List Char → Bool}
  {e : String} {entry key value : List Char}

theorem entryOf_eq_some (h : entryOf entry = some (key, value)) :
    entry = key ++ '=' :: value ∧ '=' ∉ key := by
  rw [entryOf] at h
  split at h
  · cases h
  · rename_i c rest hd
    cases h
    have hc : c = '=' := by
      have hhead := List.head?_dropWhile_not (· ≠ '=') entry
      rw [hd] at hhead
      simpa using hhead
    rw [hc] at hd
    constructor
    · rw [← hd, List.takeWhile_append_dropWhile]
    · intro hm
      have hne := List.mem_takeWhile_imp hm
      simp at hne

theorem entryOf_eq_none (h : entryOf entry = none) : '=' ∉ entry := by
  rw [entryOf] at h
  split at h
  · rename_i hd
    intro hm
    have hall := List.dropWhile_eq_nil_iff.1 hd '=' hm
    simp at hall
  · cases h

theorem splitOn_firstPart (value : List Char) :
    ∃ rest, value.splitOn '=' = firstPart value :: rest := by
  cases he : entryOf value with
  | none =>
    have hn := entryOf_eq_none he
    refine ⟨[], ?_⟩
    rw [List.splitOn_eq_singleton hn, firstPart, List.takeWhile_eq_self_iff.2]
    intro c hc
    rw [decide_eq_true_eq]
    rintro rfl
    exact hn hc
  | some p =>
    obtain ⟨hv, hn⟩ := entryOf_eq_some he
    refine ⟨p.2.splitOn '=', ?_⟩
    rw [hv, List.splitOn_append_cons_self_of_not_mem hn, firstPart, List.takeWhile_append_of_pos]
    · simp
    · intro c hc
      rw [decide_eq_true_eq]
      rintro rfl
      exact hn hc

theorem splitOn_entry (h : entryOf entry = some (key, value)) :
    ∃ rest, entry.splitOn '=' = key :: firstPart value :: rest := by
  obtain ⟨hv, hn⟩ := entryOf_eq_some h
  obtain ⟨rest, hr⟩ := splitOn_firstPart value
  exact ⟨rest, by rw [hv, List.splitOn_append_cons_self_of_not_mem hn, hr]⟩

theorem firstPart_eq_self : firstPart value = value ↔ '=' ∉ value := by
  rw [firstPart, List.takeWhile_eq_self_iff]
  constructor
  · intro h hm
    have hc := h '=' hm
    simp at hc
  · intro h c hc
    rw [decide_eq_true_eq]
    rintro rfl
    exact h hc

theorem collectEnv_cons (h : entryOf e.toList = some (key, value)) :
    collectEnv accepts vars (e :: env) = if accepts key (firstPart value) then
      collectEnv accepts (vars.insert key (firstPart value)) env else .panic := by
  obtain ⟨rest, hr⟩ := splitOn_entry h
  rw [collectEnv, hr]

theorem lastValue_cons (h : entryOf e.toList = some (key, value)) (x : List Char) :
    lastValue (e :: env) x = (lastValue env x).or (if key = x then some value else none) := by
  rw [lastValue, h]
  by_cases hx : key = x
  · rw [if_pos hx, Option.filter_some, if_pos (decide_eq_true hx)]
    rfl
  · rw [if_neg hx, Option.filter_some, if_neg (by simpa using hx)]
    rfl

theorem lastValue_mem (h : lastValue env key = some value) :
    ∃ e ∈ env, entryOf e.toList = some (key, value) := by
  induction env with
  | nil => cases h
  | cons e env ih =>
    rw [lastValue, Option.or_eq_some_iff] at h
    rcases h with h | ⟨-, h⟩
    · obtain ⟨x, hx, hv⟩ := ih h
      exact ⟨x, List.mem_cons_of_mem e hx, hv⟩
    · obtain ⟨⟨k, v⟩, hf, rfl⟩ := Option.map_eq_some_iff.1 h
      obtain ⟨he, hk⟩ := Option.filter_eq_some_iff.1 hf
      cases of_decide_eq_true hk
      exact ⟨e, List.mem_cons_self, he⟩

/-- A loop that does not unwind keeps the first part of the last value of each key. -/
theorem collectEnv_lookup (h : collectEnv accepts vars env = .ok result) (x : List Char) :
    result.lookup x = ((lastValue env x).map firstPart).or (vars.lookup x) := by
  induction env generalizing vars with
  | nil =>
    cases h
    rfl
  | cons e env ih =>
    cases he : entryOf e.toList with
    | none =>
      rw [collectEnv, List.splitOn_eq_singleton (entryOf_eq_none he)] at h
      cases h
    | some p =>
      obtain ⟨key, value⟩ := p
      rw [collectEnv_cons he] at h
      split at h
      · rw [ih h, lastValue_cons he, Table.lookup_insert]
        cases lastValue env x with
        | some v => rfl
        | none =>
          by_cases hx : key = x
          · rw [if_pos hx, if_pos hx.symm]
            rfl
          · rw [if_neg hx, if_neg (Ne.symm hx)]
            rfl
      · cases h

theorem collectEnv_isOk : (∃ result, collectEnv accepts vars env = .ok result) ↔
    ∀ e ∈ env, ∃ key value, entryOf e.toList = some (key, value) ∧
      accepts key (firstPart value) = true := by
  induction env generalizing vars with
  | nil => exact iff_of_true ⟨vars, rfl⟩ (List.forall_mem_nil _)
  | cons e env ih =>
    rw [List.forall_mem_cons]
    cases he : entryOf e.toList with
    | none =>
      rw [collectEnv, List.splitOn_eq_singleton (entryOf_eq_none he)]
      apply iff_of_false
      · rintro ⟨_, ⟨⟩⟩
      · rintro ⟨⟨_, _, ⟨⟩, -⟩, -⟩
    | some p =>
      obtain ⟨key, value⟩ := p
      rw [collectEnv_cons he]
      split
      · rename_i ha
        rw [ih]
        exact (and_iff_right ⟨key, value, rfl, ha⟩).symm
      · rename_i ha
        apply iff_of_false
        · rintro ⟨_, ⟨⟩⟩
        · rintro ⟨⟨_, _, ⟨⟩, hk⟩, -⟩
          exact ha hk

theorem setVarAccepts_iff (h : entryOf entry = some (key, value)) :
    setVarAccepts key (firstPart value) = true ↔
      key ≠ [] ∧ nulFree key = true ∧ nulFree (firstPart value) = true := by
  have hn := (entryOf_eq_some h).2
  simp [setVarAccepts, hn, and_assoc]

theorem execVars_isOk : (∃ vars, execVars env = .ok vars) ↔ ∀ e ∈ env, EntryAccepted e := by
  rw [execVars, collectEnv_isOk]
  apply forall₂_congr
  intro e _
  apply exists₂_congr
  intro key value
  apply and_congr_right
  intro h
  exact setVarAccepts_iff h

/-- The entries that the loop gets through are those of `execReady`. -/
theorem entryAccepted_iff : EntryAccepted e ↔ validEntry e = true := by
  rw [EntryAccepted, validEntry]
  cases he : entryOf e.toList with
  | none =>
    rw [List.splitOn_eq_singleton (entryOf_eq_none he)]
    apply iff_of_false
    · rintro ⟨_, _, ⟨⟩, -⟩
    · exact Bool.false_ne_true
  | some p =>
    obtain ⟨rest, hr⟩ := splitOn_entry he
    rw [hr]
    simp only [Bool.and_eq_true, decide_eq_true_eq, and_assoc]
    constructor
    · rintro ⟨_, _, ⟨⟩, h⟩
      exact h
    · intro h
      exact ⟨_, _, rfl, h⟩

theorem lookup_union (vars inherited : Vars) (key : List Char) :
    (vars ∪ inherited).lookup key = (vars.lookup key).or (inherited.lookup key) := by
  cases hk : vars.lookup key with
  | none =>
    rw [Finmap.lookup_union_right (Finmap.lookup_eq_none.1 hk)]
    rfl
  | some v =>
    rw [Finmap.lookup_union_left ((Finmap.mem_iff (s := vars)).2 ⟨v, hk⟩), hk]
    rfl

theorem Carries.of_first (h : ∀ key value, lastValue env key = some value → '=' ∉ value)
    (hl : ∀ key, result.lookup key = ((lastValue env key).map firstPart).or (vars.lookup key)) :
    Carries vars env result := by
  intro key
  rw [hl]
  cases hv : lastValue env key with
  | none => rfl
  | some value =>
    have hself := firstPart_eq_self.2 (h key value hv)
    rw [Option.map_some, hself]

theorem hookMap_isOk : (∃ vars, hookMap env = .ok vars) ↔ ∀ e ∈ env, (entryOf e.toList).isSome := by
  rw [hookMap, collectEnv_isOk]
  apply forall₂_congr
  intro e _
  rw [Option.isSome_iff_exists, Prod.exists]
  exact exists₂_congr fun _ _ => and_iff_left rfl

theorem hookMap_nulFree (h : hookMap env = .ok vars) :
    (∀ key ∈ vars.keys, nulFree key ∧ ∀ value ∈ vars.lookup key, nulFree value) ↔
      ∀ key value, lastValue env key = some value →
        nulFree key ∧ nulFree (firstPart value) := by
  have hl (key : List Char) : vars.lookup key = (lastValue env key).map firstPart :=
    (collectEnv_lookup h key).trans Option.or_none
  apply forall_congr'
  intro key
  rw [Table.mem_keys_iff, hl]
  cases lastValue env key with
  | none => exact iff_of_true nofun nofun
  | some value =>
    constructor
    · rintro hk _ ⟨⟩
      obtain ⟨hkey, hvalue⟩ := hk ⟨_, rfl⟩
      exact ⟨hkey, hvalue _ rfl⟩
    · intro hk _
      obtain ⟨hkey, hvalue⟩ := hk value rfl
      refine ⟨hkey, ?_⟩
      rintro _ ⟨⟩
      exact hvalue

theorem hookVars_isOk {inherited : Vars} : (∃ vars, hookVars inherited env = .ok vars) ↔
    (∀ e ∈ env, (entryOf e.toList).isSome) ∧ ∀ key value, lastValue env key = some value →
      nulFree key ∧ nulFree (firstPart value) := by
  rw [← hookMap_isOk]
  constructor
  · rintro ⟨_, h⟩
    obtain ⟨vars, hv, h⟩ := Outcome.bind_eq_ok.1 h
    rw [← hookMap_nulFree hv]
    split at h
    · rename_i hn
      exact ⟨⟨vars, hv⟩, hn⟩
    · cases h
  · rintro ⟨⟨vars, hv⟩, hn⟩
    apply Exists.intro (vars ∪ inherited)
    rw [hookVars, hv, Outcome.ok_bind, if_pos ((hookMap_nulFree hv).2 hn)]

theorem hookVars_lookup {inherited : Vars} (h : hookVars inherited env = .ok result)
    (key : List Char) :
    result.lookup key = ((lastValue env key).map firstPart).or (inherited.lookup key) := by
  obtain ⟨vars, hv, h⟩ := Outcome.bind_eq_ok.1 h
  split at h
  · cases h
    rw [lookup_union, collectEnv_lookup hv, Finmap.lookup_empty, Option.or_none]
  · cases h

theorem EntryAccepted.last (h : ∀ e ∈ env, EntryAccepted e)
    (hl : lastValue env key = some value) : nulFree key ∧ nulFree (firstPart value) := by
  obtain ⟨e, he, hkv⟩ := lastValue_mem hl
  obtain ⟨_, _, hkv', -, hnk, hnv⟩ := h e he
  cases hkv.symm.trans hkv'
  exact ⟨hnk, hnv⟩

/-- Both environments are right exactly if every entry is accepted and the last one of each key has
no second `=`. -/
theorem envKept_iff (env : List String) : EnvKept env ↔ (∀ e ∈ env, EntryAccepted e) ∧
    ∀ key value, lastValue env key = some value → '=' ∉ value := by
  constructor
  · rintro ⟨⟨vars, hv, hc⟩, -⟩
    refine ⟨execVars_isOk.1 ⟨vars, hv⟩, fun key value hl => ?_⟩
    have hfirst := (collectEnv_lookup hv key).symm.trans (hc key)
    rw [hl] at hfirst
    exact firstPart_eq_self.1 (Option.some.inj hfirst)
  · rintro ⟨ha, hv⟩
    constructor
    · obtain ⟨vars, hok⟩ := execVars_isOk.2 ha
      exact ⟨vars, hok, .of_first hv (collectEnv_lookup hok)⟩
    · intro inherited
      have hentries : ∀ e ∈ env, (entryOf e.toList).isSome := by
        intro e he
        obtain ⟨key, value, hkv, -⟩ := ha e he
        rw [hkv]
        rfl
      obtain ⟨vars, hok⟩ := hookVars_isOk.2 ⟨hentries, fun _ _ hl => EntryAccepted.last ha hl⟩
      exact ⟨vars, hok, .of_first hv (hookVars_lookup hok)⟩

/-- The tail of a value is lost, and a bare name unwinds. -/
theorem envKept_options :
    (¬ ∀ env : List String, (∀ e ∈ env, (entryOf e.toList).isSome) → EnvKept env) ∧
      execVars ["DEBUG"] = .panic ∧ hookMap ["DEBUG"] = .panic := by
  refine ⟨fun h => ?_, by decide, by decide⟩
  have hlast : lastValue ["JAVA_OPTS=-Da=b"] "JAVA_OPTS".toList = some "-Da=b".toList := by
    decide
  obtain ⟨⟨vars, hv, hc⟩, -⟩ := h ["JAVA_OPTS=-Da=b"] (List.forall_mem_singleton.2 (by decide))
  have hfirst := (collectEnv_lookup hv "JAVA_OPTS".toList).symm.trans (hc "JAVA_OPTS".toList)
  rw [hlast] at hfirst
  exact absurd hfirst (by decide)

end KataAgent
