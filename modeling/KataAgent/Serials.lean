import Mathlib.Logic.Function.Basic
import Mathlib.Data.List.Nodup
import Mathlib.Tactic.Common
import KataAgent.Table

namespace Serials
set_option autoImplicit true

/-- A JSON value. The members of a record have their order; those of a map have none. -/
inductive Json where
  | bool (b : Bool)
  | num (n : Int)
  | str (s : String)
  | arr (elems : List Json)
  | obj (members : List (String × Json))
  | map (entries : Table String String)

/-- A way to write the values of a type, in which different values are told apart. -/
structure Serial (α : Type) where
  toJson : α → Json
  injective : Function.Injective toJson

/-- A way to write a member that may be left out. -/
structure Slot (α : Type) where
  put : α → Option Json
  injective : Function.Injective put

/-- A member of a record: its name, how it is written and where its value is. -/
structure Field (σ : Type) where
  {α : Type}
  name : String
  slot : Slot α
  get : σ → α

def Serial.boolean : Serial Bool where
  toJson := .bool
  injective a b h := by
    cases h
    rfl

def Serial.string : Serial String where
  toJson := .str
  injective a b h := by
    cases h
    rfl

/-- Numbers that are read as integers. -/
def Serial.number (toInt : α → Int) (h : Function.Injective toInt) : Serial α where
  toJson a := .num (toInt a)
  injective a b hab := by
    injection hab with hab
    exact h hab

def Serial.list (s : Serial α) : Serial (List α) where
  toJson l := .arr (l.map s.toJson)
  injective a b h := by
    injection h with h
    exact s.injective.list_map h

def Slot.always (s : Serial α) : Slot α where
  put a := some (s.toJson a)
  injective _ _ h := s.injective (Option.some.inj h)

/-- `skip_serializing_if = "Option::is_none"`. -/
def Slot.option (s : Serial α) : Slot (Option α) where
  put o := o.map s.toJson
  injective := Option.map_injective s.injective

/-- A member that is left out where it has its default value. -/
def Slot.unless (s : Serial α) (default : α) [DecidableEq α] : Slot α where
  put a := if a = default then none else some (s.toJson a)
  injective a b h := by
    dsimp only at h
    by_cases ha : a = default
    · by_cases hb : b = default
      · rw [ha, hb]
      · rw [if_pos ha, if_neg hb] at h
        cases h
    · by_cases hb : b = default
      · rw [if_neg ha, if_pos hb] at h
        cases h
      · rw [if_neg ha, if_neg hb] at h
        exact s.injective (Option.some.inj h)

/-- `skip_serializing_if = "Vec::is_empty"`. -/
def Slot.list (s : Serial α) : Slot (List α) where
  put
    | [] => none
    | l => some (s.list.toJson l)
  injective a b h := by
    cases a with
    | nil =>
      cases b with
      | nil => rfl
      | cons y b => cases h
    | cons x a =>
      cases b with
      | nil => cases h
      | cons y b => exact s.list.injective (Option.some.inj h)

/-- `skip_serializing_if = "String::is_empty"`. -/
def Slot.string : Slot String := .unless .string ""

/-- `skip_serializing_if = "HashMap::is_empty"`. -/
def Slot.map : Slot (Table String String) :=
  .unless ⟨.map, fun _ _ h => by cases h; rfl⟩ ∅

section
variable {σ : Type} {fields : List (Field σ)} {a b : σ}

def members (fields : List (Field σ)) (a : σ) : List (String × Json) :=
  fields.filterMap fun f => (f.slot.put (f.get a)).map fun j => (f.name, j)

theorem name_mem_of_mem_members {name : String} {j : Json} (h : (name, j) ∈ members fields a) :
    name ∈ fields.map Field.name := by
  obtain ⟨f, hf, hput⟩ := List.mem_filterMap.1 h
  obtain ⟨k, -, hk⟩ := Option.map_eq_some_iff.1 hput
  cases hk
  exact List.mem_map_of_mem hf

theorem members_cons (f : Field σ) (fields : List (Field σ)) (a : σ) :
    members (f :: fields) a =
      ((f.slot.put (f.get a)).map fun j => (f.name, j)).toList ++ members fields a := by
  rw [members, List.filterMap_cons]
  cases f.slot.put (f.get a) with
  | none => rfl
  | some j => rfl

/-- Members with names of their own are told apart one by one. -/
theorem members_inj (names : (fields.map Field.name).Nodup)
    (h : members fields a = members fields b) : ∀ f ∈ fields, f.get a = f.get b := by
  induction fields with
  | nil => exact nofun
  | cons f fields ih =>
    rw [List.map_cons, List.nodup_cons] at names
    obtain ⟨hname, names⟩ := names
    rw [members_cons, members_cons] at h
    have hnot (c : σ) (j : Json) : (f.name, j) ∉ members fields c :=
      fun hmem => hname (name_mem_of_mem_members hmem)
    cases ha : f.slot.put (f.get a) with
    | none =>
      cases hb : f.slot.put (f.get b) with
      | none =>
        rw [ha, hb] at h
        exact List.forall_mem_cons.2 ⟨f.slot.injective (ha.trans hb.symm), ih names h⟩
      | some k =>
        rw [ha, hb] at h
        have hmem : (f.name, k) ∈ members fields a := by
          have hcons : members fields a = (f.name, k) :: members fields b := h
          rw [hcons]
          exact List.mem_cons_self
        exact absurd hmem (hnot a k)
    | some j =>
      cases hb : f.slot.put (f.get b) with
      | none =>
        rw [ha, hb] at h
        have hmem : (f.name, j) ∈ members fields b := by
          have hcons : (f.name, j) :: members fields a = members fields b := h
          rw [← hcons]
          exact List.mem_cons_self
        exact absurd hmem (hnot b j)
      | some k =>
        rw [ha, hb] at h
        have hcons : (f.name, j) :: members fields a = (f.name, k) :: members fields b := h
        obtain ⟨hhead, htail⟩ := List.cons.inj hcons
        cases hhead
        exact List.forall_mem_cons.2 ⟨f.slot.injective (ha.trans hb.symm), ih names htail⟩

end

/-- A record is written member by member. For a given list of members both facts are found by
the tactics, so that a record is declared by its members alone. -/
def Serial.record (fields : List (Field σ))
    (names : (fields.map Field.name).Nodup := by decide)
    (ext : ∀ a b : σ, (∀ f ∈ fields, f.get a = f.get b) → a = b := by
      rintro ⟨⟩ ⟨⟩ h
      simpa using h) : Serial σ where
  toJson a := .obj (members fields a)
  injective a b h := by
    injection h with h
    exact ext a b (members_inj names h)

end Serials
