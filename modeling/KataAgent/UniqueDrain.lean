import KataAgent.Message
import KataAgent.Table
import Mathlib.Data.Finset.Sort
import Mathlib.Data.String.Basic

namespace KataAgent
open Fallible
set_option autoImplicit true

/-- A key, and the text that its value is formatted to. -/
abbrev KeyValue := String × String

/-- What a `KV` serializes, in this order, and the error that it then ends with. -/
structure KV where
  fields : List KeyValue
  error : Option ErrorKind

inductive Level where
  | critical
  | error
  | warning
  | info
  | debug
  | trace
  deriving DecidableEq

structure Record where
  level : Level
  tag : String
  msg : String
  kv : KV

/-- Used to convert an `OwnedKVList` into a hash map. -/
structure HashSerializer where
  fields : Table String String

def HashSerializer.new : HashSerializer := ⟨∅⟩

def HashSerializer.addField (s : HashSerializer) (key value : String) : HashSerializer :=
  if key ∈ s.fields then s else { s with fields := s.fields.insert key value }

def HashSerializer.removeField (s : HashSerializer) (key : String) : HashSerializer :=
  { s with fields := s.fields.erase key }

/-- Each value is emitted as a text, which adds a field. -/
def KV.serialize (kv : KV) (s : HashSerializer) : Outcome ErrorKind HashSerializer :=
  match kv.error with
  | some e => .err e
  | none => .ok (kv.fields.foldl (fun s (key, value) => s.addField key value) s)

/-- An order in which hash maps are iterated. -/
structure FieldOrder where
  order : Table String String → List String
  nodup_order : ∀ m, (order m).Nodup
  mem_order : ∀ m k, k ∈ order m ↔ k ∈ m

/-- What the serializer itself serializes, as a `KV`. -/
def HashSerializer.kv (s : HashSerializer) (o : FieldOrder) : KV where
  fields := (o.order s.fields).filterMap fun key =>
    (s.fields.lookup key).map fun value => (key, value)
  error := none

abbrev Drain (σ ε α : Type) := Record → KV → Act σ ε α

structure UniqueDrain (σ ε α : Type) where
  drain : Drain σ ε α

/-- The results of the drain inside, and its errors under one text. -/
def drained (x : Act σ ε α) : Act σ ErrorKind Unit := fun s =>
  match x s with
  | (.ok _, t) => (.ok (), t)
  | (.err _, t) => (.err (.io "failed to drain log"), t)
  | (.panic, t) => (.panic, t)

/-- The two hash maps are iterated in orders of their own. -/
def UniqueDrain.log (d : UniqueDrain σ ε α) (o o' : FieldOrder) : Drain σ ErrorKind Unit :=
  fun record values => do
    let loggerSerializer ← Act.lift (values.serialize .new)
    let recordSerializer ← Act.lift (record.kv.serialize .new)
    let loggerSerializer := (o.order recordSerializer.fields).foldl HashSerializer.removeField
      loggerSerializer
    let newRecord : Record := {
      level := record.level
      tag := ""
      msg := record.msg
      kv := recordSerializer.kv o }
    drained (d.drain newRecord (loggerSerializer.kv o'))

section
variable {s : HashSerializer} {o o' : FieldOrder} {key x value : String} {l : List KeyValue}

theorem lookup_addField (s : HashSerializer) (key value x : String) :
    (s.addField key value).fields.lookup x =
      (s.fields.lookup x).or (if x = key then some value else none) := by
  rw [HashSerializer.addField]
  split
  · rename_i hk
    obtain ⟨v, hv⟩ := Finmap.mem_iff.1 hk
    split
    · rename_i hx
      rw [hx, hv, Option.some_or]
    · rw [Option.or_none]
  · rename_i hk
    rw [Table.lookup_insert]
    split
    · rename_i hx
      rw [hx, Table.notMem_iff.1 hk, Option.none_or]
    · rw [Option.or_none]

/-- Only the first instance of a key is added. -/
theorem lookup_addFields (s : HashSerializer) (l : List KeyValue) (x : String) :
    (l.foldl (fun s (key, value) => s.addField key value) s).fields.lookup x =
      (s.fields.lookup x).or (l.lookup x) := by
  induction l generalizing s with
  | nil => rw [List.foldl_nil, List.lookup_nil, Option.or_none]
  | cons p l ih =>
    rw [List.foldl_cons, ih, lookup_addField, Option.or_assoc, List.lookup_cons]
    congr 1
    by_cases hx : x = p.1
    · rw [if_pos hx, beq_iff_eq.2 hx, Option.some_or]
    · rw [if_neg hx, beq_eq_false_iff_ne.2 hx, Option.none_or]

theorem fields_removeFields (s : HashSerializer) (keys : List String) :
    (keys.foldl HashSerializer.removeField s).fields =
      keys.foldl (fun m key => m.erase key) s.fields := by
  induction keys generalizing s with
  | nil => rfl
  | cons key keys ih =>
    rw [List.foldl_cons, ih]
    rfl

theorem mem_kv : (key, value) ∈ (s.kv o).fields ↔ s.fields.lookup key = some value := by
  rw [HashSerializer.kv, List.mem_filterMap]
  constructor
  · rintro ⟨k, -, hk⟩
    obtain ⟨v, hv, hp⟩ := Option.map_eq_some_iff.1 hk
    cases hp
    exact hv
  · intro h
    refine ⟨key, (o.mem_order _ _).2 (Finmap.mem_iff.2 ⟨value, h⟩), ?_⟩
    rw [h, Option.map_some]

theorem keys_kv (s : HashSerializer) (o : FieldOrder) :
    (s.kv o).fields.map Prod.fst = o.order s.fields := by
  rw [HashSerializer.kv, List.map_filterMap]
  have hall : ∀ key ∈ o.order s.fields,
      ((s.fields.lookup key).map fun value => (key, value)).map Prod.fst = some key := by
    intro key hkey
    obtain ⟨value, hv⟩ := Finmap.mem_iff.1 ((o.mem_order _ _).1 hkey)
    rw [hv]
    rfl
  rw [List.filterMap_congr hall, List.filterMap_some]

theorem serialize_new (l : List KeyValue) : ∃ s, (KV.mk l none).serialize .new = .ok s ∧
    ∀ key, s.fields.lookup key = l.lookup key := by
  refine ⟨l.foldl (fun s (key, value) => s.addField key value) .new, rfl, fun key => ?_⟩
  rw [lookup_addFields, HashSerializer.new, Finmap.lookup_empty, Option.none_or]

/-- Nothing is passed on when something cannot be serialized. -/
theorem UniqueDrain.log_of_error {σ ε α : Type} {d : UniqueDrain σ ε α} {record : Record}
    {values : KV} {e : ErrorKind} (h : values.error.or record.kv.error = some e) :
    d.log o o' record values = Act.fail e := by
  have herror {kv : KV} {e : ErrorKind} (h : kv.error = some e) : kv.serialize .new = .err e := by
    rw [KV.serialize, h]
  funext s
  rw [UniqueDrain.log]
  cases hv : values.error with
  | some e' =>
    rw [hv, Option.some_or] at h
    cases h
    rw [herror hv]
    rfl
  | none =>
    rw [hv, Option.none_or] at h
    have hok : values.serialize .new =
        .ok (values.fields.foldl (fun s (key, value) => s.addField key value) .new) := by
      rw [KV.serialize, hv]
    rw [hok, herror h]
    rfl

end

/-- What the drain inside is given has each key once: the record's with its first value, and of the
logger the newest value of each key that the record does not have. -/
theorem UniqueDrain.log_once (o o' : FieldOrder) (level : Level) (tag msg : String)
    (fields values : List KeyValue) : ∃ recordFields loggerFields : List KeyValue,
    (∀ {σ ε α : Type} (d : UniqueDrain σ ε α),
      d.log o o' ⟨level, tag, msg, ⟨fields, none⟩⟩ ⟨values, none⟩ =
        drained (d.drain ⟨level, "", msg, ⟨recordFields, none⟩⟩ ⟨loggerFields, none⟩)) ∧
      ((recordFields ++ loggerFields).map Prod.fst).Nodup ∧
        (∀ key value, (key, value) ∈ recordFields ↔ fields.lookup key = some value) ∧
          ∀ key value, (key, value) ∈ loggerFields ↔
            fields.lookup key = none ∧ values.lookup key = some value := by
  obtain ⟨logger, hlogger, hvalues⟩ := serialize_new values
  obtain ⟨record, hrecord, hfields⟩ := serialize_new fields
  let rest := (o.order record.fields).foldl HashSerializer.removeField logger
  have hrest (key : String) : rest.fields.lookup key =
      if key ∈ record.fields then none else values.lookup key := by
    rw [fields_removeFields, Table.lookup_foldl_erase, hvalues]
    simp only [o.mem_order]
  refine ⟨(record.kv o).fields, (rest.kv o').fields, ?_, ?_, ?_, ?_⟩
  · intro σ ε α d
    funext s
    rw [UniqueDrain.log, hlogger, hrecord]
    rfl
  · rw [List.map_append, keys_kv, keys_kv, List.nodup_append]
    refine ⟨o.nodup_order _, o'.nodup_order _, fun key hkey other hother heq => ?_⟩
    have hrecord := (o.mem_order _ _).1 hkey
    obtain ⟨value, hvalue⟩ := Finmap.mem_iff.1 ((o'.mem_order _ _).1 hother)
    rw [hrest, ← heq, if_pos hrecord] at hvalue
    cases hvalue
  · intro key value
    rw [mem_kv, hfields]
  · intro key value
    rw [mem_kv, hrest, ← hfields, ← Table.notMem_iff]
    split
    · rename_i hkey
      exact iff_of_false (fun h => by cases h) fun h => h.1 hkey
    · rename_i hkey
      exact (and_iff_right hkey).symm

/-- The keys in alphabetical order. -/
def sortedFields : FieldOrder where
  order m := m.keys.sort (· ≤ ·)
  nodup_order _ := Finset.sort_nodup _ _
  mem_order _ _ := by rw [Finset.mem_sort, Finmap.mem_keys]

/-- A drain that keeps what it is given. -/
def keepingDrain : UniqueDrain (List (List KeyValue × List KeyValue)) ErrorKind Unit where
  drain record values := Act.modify fun s => (record.kv.fields, values.fields) :: s

/-- The record's subsystem takes the place of the logger's. -/
theorem UniqueDrain.log_once_subsystem : ∃ recordFields loggerFields : List KeyValue,
    (keepingDrain.log sortedFields sortedFields ⟨.info, "", "foo, bar, baz",
        ⟨[("subsystem", "record-subsystem"), ("record-key-1", "record-key-2")], none⟩⟩
      ⟨[("pid", "7"), ("subsystem", "root"), ("pid", "1")], none⟩ []).2 =
        [(recordFields, loggerFields)] ∧
      ("subsystem", "record-subsystem") ∈ recordFields ∧ ("pid", "7") ∈ loggerFields ∧
        ∀ value, ("subsystem", value) ∉ loggerFields := by
  obtain ⟨recordFields, loggerFields, hlog, -, hrecord, hlogger⟩ := UniqueDrain.log_once
    sortedFields sortedFields .info "" "foo, bar, baz"
    [("subsystem", "record-subsystem"), ("record-key-1", "record-key-2")]
    [("pid", "7"), ("subsystem", "root"), ("pid", "1")]
  refine ⟨recordFields, loggerFields, ?_, (hrecord _ _).2 (by decide), (hlogger _ _).2 (by decide),
    fun value h => ?_⟩
  · rw [hlog]
    rfl
  · exact absurd ((hlogger _ _).1 h).1 (by decide)

end KataAgent
