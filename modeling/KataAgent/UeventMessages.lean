import KataAgent.EnvEntries
import KataAgent.Hotplug
import KataAgent.InterfaceListing
import KataAgent.LastWrite

namespace KataAgent
open Fallible LastWrite Records
set_option autoImplicit true

def U_EVENT_ACTION : String := "ACTION"

def U_EVENT_DEV_PATH : String := "DEVPATH"

def U_EVENT_SUB_SYSTEM : String := "SUBSYSTEM"

def U_EVENT_SEQ_NUM : String := "SEQNUM"

def U_EVENT_DEV_NAME : String := "DEVNAME"

def U_EVENT_INTERFACE : String := "INTERFACE"

/-- `splitn`: at most so many parts, the last of which is not split. -/
def splitn (sep : Char) : Nat → List Char → List (List Char)
  | 0, _ => []
  | 1, s => [s]
  | n + 2, s =>
    match s.dropWhile (· ≠ sep) with
    | [] => [s]
    | _ :: rest => s.takeWhile (· ≠ sep) :: splitn sep (n + 1) rest

def Uevent.default : Uevent := ⟨"", "", "", "", "", ""⟩

/-- The body of the loop of `parse_uevent`. -/
def Uevent.parseArg (event : Uevent) (arg : List Char) : Uevent :=
  match splitn '=' 2 arg with
  | [key, value] =>
    if key = U_EVENT_ACTION.toList then { event with action := String.ofList value }
    else if key = U_EVENT_DEV_NAME.toList then { event with devname := String.ofList value }
    else if key = U_EVENT_SUB_SYSTEM.toList then { event with subsystem := String.ofList value }
    else if key = U_EVENT_DEV_PATH.toList then { event with devpath := String.ofList value }
    else if key = U_EVENT_SEQ_NUM.toList then { event with seqnum := String.ofList value }
    else if key = U_EVENT_INTERFACE.toList then { event with interface := String.ofList value }
    else event
  | _ => event

def parseUevent (message : String) : Uevent :=
  (message.toList.splitOn '\x00').tail.foldl Uevent.parseArg .default

/-- What `watch_uevents` makes of the bytes that it receives. -/
def readUevent (data : Bytes) : Outcome ErrorKind Uevent := do
  let text ← fromUtf8 data
  return parseUevent text

inductive UeventField where
  | action
  | devpath
  | devname
  | subsystem
  | seqnum
  | interface
  deriving DecidableEq

def UeventField.key : UeventField → String
  | .action => U_EVENT_ACTION
  | .devpath => U_EVENT_DEV_PATH
  | .devname => U_EVENT_DEV_NAME
  | .subsystem => U_EVENT_SUB_SYSTEM
  | .seqnum => U_EVENT_SEQ_NUM
  | .interface => U_EVENT_INTERFACE

def Uevent.field (event : Uevent) : UeventField → String
  | .action => event.action
  | .devpath => event.devpath
  | .devname => event.devname
  | .subsystem => event.subsystem
  | .seqnum => event.seqnum
  | .interface => event.interface

def Uevent.write (event : Uevent) (f : UeventField) (value : String) : Uevent :=
  match f with
  | .action => { event with action := value }
  | .devpath => { event with devpath := value }
  | .devname => { event with devname := value }
  | .subsystem => { event with subsystem := value }
  | .seqnum => { event with seqnum := value }
  | .interface => { event with interface := value }

/-- A header, and the pairs behind it. -/
def ueventMessage (header : String) (pairs : List (String × String)) (trailing : Bool) : String :=
  "\x00".intercalate
    (header :: (pairs.map fun (key, value) => key ++ "=" ++ value) ++ if trailing then [""] else [])

/-- The header and the pairs can be told apart in a message. -/
structure UeventParts (header : String) (pairs : List (String × String)) : Prop where
  header : '\x00' ∉ header.toList
  keys : ∀ p ∈ pairs, '\x00' ∉ p.1.toList ∧ '=' ∉ p.1.toList
  values : ∀ p ∈ pairs, '\x00' ∉ p.2.toList

/-- The value of the last pair with the key, or nothing. -/
def lastPair (pairs : List (String × String)) (key : String) : String :=
  (lastWrite (fun p => if p.1 = key then some p.2 else none) pairs).getD ""

/-- What the pairs say. -/
def eventOf (pairs : List (String × String)) : Uevent where
  action := lastPair pairs U_EVENT_ACTION
  devpath := lastPair pairs U_EVENT_DEV_PATH
  devname := lastPair pairs U_EVENT_DEV_NAME
  subsystem := lastPair pairs U_EVENT_SUB_SYSTEM
  seqnum := lastPair pairs U_EVENT_SEQ_NUM
  interface := lastPair pairs U_EVENT_INTERFACE

/-- What a segment of a message writes to a field. -/
def fieldValue (f : UeventField) (arg : List Char) : Option String :=
  (entryOf arg).bind fun p => if p.1 = f.key.toList then some (String.ofList p.2) else none

section
variable {event event' : Uevent} {f : UeventField} {arg key value : List Char} {header : String}
  {pairs : List (String × String)} {trailing : Bool}

theorem Uevent.ext_field (h : ∀ f, event.field f = event'.field f) : event = event' := by
  cases event
  cases event'
  rw [Uevent.mk.injEq]
  exact ⟨h .action, h .devpath, h .devname, h .subsystem, h .seqnum, h .interface⟩

theorem eventOf_field (pairs : List (String × String)) (f : UeventField) :
    (eventOf pairs).field f = lastPair pairs f.key := by
  cases f with
  | action => rfl
  | devpath => rfl
  | devname => rfl
  | subsystem => rfl
  | seqnum => rfl
  | interface => rfl

theorem default_field (f : UeventField) : Uevent.default.field f = "" := by
  cases f with
  | action => rfl
  | devpath => rfl
  | devname => rfl
  | subsystem => rfl
  | seqnum => rfl
  | interface => rfl

theorem field_write (event : Uevent) (f g : UeventField) (value : String) :
    (event.write f value).field g = if g = f then value else event.field g := by
  cases f with
  | _ =>
    cases g with
    | _ => rfl

theorem splitn_two (arg : List Char) :
    splitn '=' 2 arg = (entryOf arg).elim [arg] fun p => [p.1, p.2] := by
  rw [splitn, entryOf]
  cases arg.dropWhile (· ≠ '=') with
  | nil => rfl
  | cons c value => rfl

theorem UeventField.key_injective : Function.Injective fun f : UeventField => f.key.toList := by
  intro f g h
  have hkey : f.key = g.key := String.toList_injective h
  revert hkey
  cases f with
  | _ =>
    cases g with
    | _ => decide

theorem parseArg_of_none (h : entryOf arg = none) : event.parseArg arg = event := by
  rw [Uevent.parseArg, splitn_two, h]
  rfl

theorem parseArg_of_some (h : entryOf arg = some (key, value)) : event.parseArg arg =
    if key = UeventField.action.key.toList then event.write .action (String.ofList value)
    else if key = UeventField.devname.key.toList then event.write .devname (String.ofList value)
    else if key = UeventField.subsystem.key.toList then event.write .subsystem (String.ofList value)
    else if key = UeventField.devpath.key.toList then event.write .devpath (String.ofList value)
    else if key = UeventField.seqnum.key.toList then event.write .seqnum (String.ofList value)
    else if key = UeventField.interface.key.toList then event.write .interface (String.ofList value)
    else event := by
  rw [Uevent.parseArg, splitn_two, h]
  rfl

theorem parseArg_of_key (h : entryOf arg = some (f.key.toList, value)) :
    event.parseArg arg = event.write f (String.ofList value) := by
  have hkey {g : UeventField} : f.key.toList = g.key.toList ↔ f = g :=
    UeventField.key_injective.eq_iff
  simp only [parseArg_of_some h, hkey]
  cases f with
  | _ => rfl

theorem parseArg_of_unknown (h : entryOf arg = some (key, value))
    (hk : ∀ f : UeventField, key ≠ f.key.toList) : event.parseArg arg = event := by
  rw [parseArg_of_some h, if_neg (hk .action), if_neg (hk .devname), if_neg (hk .subsystem),
    if_neg (hk .devpath), if_neg (hk .seqnum), if_neg (hk .interface)]

/-- Each segment writes the field that its key names, and leaves the others. -/
theorem field_parseArg (event : Uevent) (arg : List Char) (f : UeventField) :
    (event.parseArg arg).field f = (fieldValue f arg).getD (event.field f) := by
  cases he : entryOf arg with
  | none =>
    rw [parseArg_of_none he, fieldValue, he]
    rfl
  | some p =>
    obtain ⟨key, value⟩ := p
    by_cases hk : ∃ g : UeventField, key = g.key.toList
    · obtain ⟨g, rfl⟩ := hk
      rw [parseArg_of_key he, field_write, fieldValue, he, Option.bind_some]
      by_cases hfg : f = g
      · rw [if_pos hfg, hfg, if_pos rfl, Option.getD_some]
      · have hne : g.key.toList ≠ f.key.toList := fun h => hfg (UeventField.key_injective h).symm
        rw [if_neg hfg, if_neg hne, Option.getD_none]
    · have hno : ∀ g : UeventField, key ≠ g.key.toList := fun g hg => hk ⟨g, hg⟩
      rw [parseArg_of_unknown he hno, fieldValue, he, Option.bind_some, if_neg (hno f),
        Option.getD_none]

/-- The event of any message: each field is what the last segment for it says. -/
theorem parseUevent_field (message : String) (f : UeventField) : (parseUevent message).field f =
    (lastWrite (fieldValue f) (message.toList.splitOn '\x00').tail).getD "" := by
  rw [← default_field f]
  exact register_foldl Uevent.parseArg (fun event => event.field f)
    (fun event arg => field_parseArg event arg f) .default _

theorem entryOf_append (h : '=' ∉ key) : entryOf (key ++ '=' :: value) = some (key, value) := by
  have hkey : ∀ c ∈ key, decide (c ≠ '=') = true := by
    intro c hc
    exact decide_eq_true (ne_of_mem_of_not_mem hc h)
  rw [entryOf, List.dropWhile_append_of_pos hkey, List.takeWhile_append_of_pos hkey,
    List.dropWhile_cons_of_neg (by decide), List.takeWhile_cons_of_neg (by decide), List.append_nil]

/-- The first segment of a message is its header, and a trailing NUL leaves an empty one. -/
theorem splitOn_ueventMessage (h : UeventParts header pairs) (trailing : Bool) :
    (ueventMessage header pairs trailing).toList.splitOn '\x00' = header.toList ::
      ((pairs.map fun p => p.1.toList ++ '=' :: p.2.toList) ++ if trailing then [[]] else []) := by
  have hsep : "\x00".toList = ['\x00'] := by decide
  have hlist : (ueventMessage header pairs trailing).toList = ['\x00'].intercalate (header.toList ::
      ((pairs.map fun p => p.1.toList ++ '=' :: p.2.toList) ++
        if trailing then [[]] else [])) := by
    have hpair (p : String × String) :
        (p.1 ++ "=" ++ p.2).toList = p.1.toList ++ '=' :: p.2.toList := by
      have heq : "=".toList = ['='] := by decide
      rw [String.toList_append, String.toList_append, heq, List.append_assoc, List.singleton_append]
    have hend : (if trailing then [""] else []).map String.toList =
        if trailing then [[]] else [] := by
      cases trailing with
      | false => rfl
      | true => exact congrArg (fun l => [l]) String.toList_empty
    rw [ueventMessage, String.toList_intercalate, hsep, List.map_append, List.map_cons,
      List.map_map, hend]
    simp only [Function.comp_def, hpair, List.cons_append]
  rw [hlist]
  apply List.splitOn_intercalate
  · intro l hl
    rcases List.mem_cons.1 hl with rfl | hl
    · exact h.header
    · rcases List.mem_append.1 hl with hl | hl
      · obtain ⟨p, hp, rfl⟩ := List.mem_map.1 hl
        rw [List.mem_append, List.mem_cons]
        rintro (hk | he | hv)
        · exact (h.keys p hp).1 hk
        · cases he
        · exact h.values p hp hv
      · cases trailing with
        | false => cases hl
        | true =>
          cases List.mem_singleton.1 hl
          exact List.not_mem_nil
  · exact List.cons_ne_nil _ _

theorem parseUevent_ueventMessage (h : UeventParts header pairs) (trailing : Bool) :
    parseUevent (ueventMessage header pairs trailing) = eventOf pairs := by
  have hpairs (f : UeventField) :
      (pairs.map fun p => p.1.toList ++ '=' :: p.2.toList).filterMap (fieldValue f) =
        pairs.filterMap fun p => if p.1 = f.key then some p.2 else none := by
    rw [List.filterMap_map]
    apply List.filterMap_congr
    intro p hp
    rw [Function.comp_apply, fieldValue, entryOf_append (h.keys p hp).2, Option.bind_some]
    simp only [String.toList_inj, String.ofList_toList]
  have hend (f : UeventField) :
      (if trailing then [[]] else []).filterMap (fieldValue f) = [] := by
    cases trailing with
    | false => rfl
    | true => rfl
  apply Uevent.ext_field
  intro f
  rw [parseUevent_field, eventOf_field, splitOn_ueventMessage h, List.tail_cons, lastPair,
    lastWrite, lastWrite, List.filterMap_append, hpairs, hend, List.append_nil]

/-- Each field is the value of the last pair with its key, whatever the header says. -/
theorem parseUevent_lastPair (h : UeventParts header pairs) (trailing : Bool) (f : UeventField) :
    (parseUevent (ueventMessage header pairs trailing)).field f = lastPair pairs f.key := by
  rw [parseUevent_ueventMessage h, eventOf_field]

/-- The devices that are added to the device map are those that the kernel says are block devices
with a name, on the root bus. -/
theorem readUevent_announced (h : UeventParts header pairs) (trailing : Bool) (arch : TargetArch) :
    ∃ event, readUevent (utf8Bytes (ueventMessage header pairs trailing)) = .ok event ∧
      (event.announced arch ↔ lastPair pairs U_EVENT_DEV_NAME ≠ "" ∧
        startsWith (lastPair pairs U_EVENT_DEV_PATH) (rootBusPath arch) ∧
          lastPair pairs U_EVENT_SUB_SYSTEM = "block") := by
  refine ⟨eventOf pairs, ?_, .rfl⟩
  rw [readUevent, fromUtf8_eq_ok.2 rfl, Outcome.ok_bind, parseUevent_ueventMessage h]
  rfl

end

/-- The header and a value have the separator, and a key comes twice. -/
theorem parseUevent_diskEvent :
    (parseUevent (ueventMessage "add@/devices/DEVNAME=vdb"
      [("ACTION", "add"), ("DEVNAME", "vda"), ("MAJOR", "254"), ("DEVNAME", "vda=1")]
      true)).field .devname = "vda=1" :=
  (parseUevent_lastPair ⟨by decide, by decide, by decide⟩ true .devname).trans (by decide)

end KataAgent
