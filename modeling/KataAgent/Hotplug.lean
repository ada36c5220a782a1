import KataAgent.Message
import KataAgent.Table
import KataAgent.Transition

namespace KataAgent
open Fallible Transition
set_option autoImplicit true

/-- The targets that the source gives a `ROOT_BUS_PATH`. -/
inductive TargetArch where
  | x86
  | arm
  deriving DecidableEq, Repr

def rootBusPath : TargetArch → String
  | .x86 => "/devices/pci0000:00"
  | .arm => "/devices/platform/4010000000.pcie/pci0000:00"

def scsiBlockSuffix : String := "block"

def systemDevPath : String := "/dev"

def timeoutHotplug : Nat := 3

structure Uevent where
  action : String
  devpath : String
  devname : String
  subsystem : String
  seqnum : String
  interface : String
  deriving DecidableEq, Repr

/-- The events that `watch_uevents` adds to the device map and announces. -/
def Uevent.announced (arch : TargetArch) (event : Uevent) : Prop :=
  event.devname ≠ "" ∧ startsWith event.devpath (rootBusPath arch) ∧ event.subsystem = "block"

instance : Decidable (Uevent.announced arch event) :=
  inferInstanceAs (Decidable (_ ∧ _ ∧ _))

/-- The predicate by which an event's path selects the watchers to notify. -/
def watcherAccepts (arch : TargetArch) (devpath devAddr : String) : Prop :=
  startsWith devpath (rootBusPath arch ++ "/" ++ devAddr) ∨
    (endsWith devAddr scsiBlockSuffix ∧ contains devpath devAddr)

instance : Decidable (watcherAccepts arch devpath devAddr) :=
  inferInstanceAs (Decidable (_ ∨ _ ∧ _))

theorem watcherAccepts.contains (h : watcherAccepts arch devpath devAddr) :
    contains devpath devAddr := by
  rcases h with h | ⟨_, h⟩
  · exact contains_of_startsWith_append h
  · exact h

/-- A call of `get_device_name`, named by the channel it creates. -/
abbrev CallId := Nat

/-- Where a call stands: in `recv_timeout`, past it with an error, or back at its caller. -/
inductive CallPhase where
  | waiting
  | gaveUp
  | returned (r : Outcome ErrorKind String)
  deriving DecidableEq, Repr

structure Call where
  devAddr : String
  /-- What was sent on the call's channel and not yet received. -/
  inbox : List String
  phase : CallPhase
  /-- For the specification: the events processed before the call's wait ended. -/
  seen : List Uevent
  deriving DecidableEq, Repr

/-- The uevent thread holds the watcher and the sandbox mutex from the first send to the
last removal. -/
inductive UeventThread where
  | idle
  | notifying (event : Uevent) (toSend toRemove : List String)
  deriving DecidableEq, Repr

structure Hotplug where
  pciDeviceMap : Table String String
  /-- `GLOBAL_DEVICE_WATCHER`; a sender is named by the call that holds the receiver. -/
  watcher : Table String CallId
  calls : Table CallId Call
  thread : UeventThread
  /-- For the specification: the events whose handling is complete. -/
  processed : List Uevent
  deriving DecidableEq

/-- One atomic section of one party. The keys in `lookup` and `begin` are the ones a run over
a `HashMap` meets first, and in what order. -/
inductive HotplugAction where
  | lookup (c : CallId) (devAddr : String) (found : Option String)
  | receive (c : CallId)
  | timeout (c : CallId)
  | giveUp (c : CallId)
  | begin (event : Uevent) (order : List String)
  | send
  | remove
  | release
  deriving DecidableEq, Repr

def Hotplug.setCall (s : Hotplug) (c : CallId) (call : Call) : Hotplug :=
  { s with calls := s.calls.insert c call }

def deviceNode (devName : String) : String := systemDevPath ++ "/" ++ devName

def timeoutError (devAddr : String) : ErrorKind :=
  .errorCode ("Timeout reached after " ++ toString timeoutHotplug ++ " waiting for device " ++
    devAddr)

/-- The key at which the search of the device map stops. -/
def Hotplug.finds (s : Hotplug) (devAddr : String) : Option String → Prop
  | none => ∀ key ∈ s.pciDeviceMap.keys, ¬ contains key devAddr
  | some key => key ∈ s.pciDeviceMap.keys ∧ contains key devAddr

instance : Decidable (Hotplug.finds s devAddr found) :=
  match found with
  | none => inferInstanceAs (Decidable (∀ key ∈ s.pciDeviceMap.keys, ¬ contains key devAddr))
  | some key => inferInstanceAs (Decidable (key ∈ s.pciDeviceMap.keys ∧ contains key devAddr))

def Hotplug.devName (s : Hotplug) (found : Option String) : String :=
  ((found.bind fun key => s.pciDeviceMap.lookup key).getD "")

/-- The section of `get_device_name` under the two mutexes. -/
def Hotplug.lookupOrRegister (s : Hotplug) (c : CallId) (devAddr : String)
    (found : Option String) : Option Hotplug :=
  if s.thread = .idle ∧ c ∉ s.calls ∧ s.finds devAddr found then
    if s.devName found = "" then
      some (Hotplug.setCall { s with watcher := s.watcher.insert devAddr c } c
        ⟨devAddr, [], .waiting, []⟩)
    else
      some (s.setCall c ⟨devAddr, [], .returned (.ok (deviceNode (s.devName found))), []⟩)
  else none

/-- `recv_timeout` returns a message. -/
def Hotplug.receive (s : Hotplug) (c : CallId) : Option Hotplug :=
  match s.calls.lookup c with
  | some ⟨devAddr, name :: inbox, .waiting, seen⟩ =>
    some (s.setCall c ⟨devAddr, inbox, .returned (.ok (deviceNode name)), seen⟩)
  | _ => none

/-- `recv_timeout` fails, which it does on an empty channel only. -/
def Hotplug.timeout (s : Hotplug) (c : CallId) : Option Hotplug :=
  match s.calls.lookup c with
  | some ⟨devAddr, [], .waiting, _⟩ => some (s.setCall c ⟨devAddr, [], .gaveUp, s.processed⟩)
  | _ => none

/-- The removal of the watcher entry after a failed wait, under the watcher mutex. -/
def Hotplug.giveUp (s : Hotplug) (c : CallId) : Option Hotplug :=
  match s.calls.lookup c with
  | some ⟨devAddr, inbox, .gaveUp, seen⟩ =>
    if s.thread = .idle then
      some (Hotplug.setCall { s with watcher := s.watcher.erase devAddr } c
        ⟨devAddr, inbox, .returned (.err (timeoutError devAddr)), seen⟩)
    else none
  | _ => none

/-- The watchers that an event has to notify. -/
def Hotplug.interested (arch : TargetArch) (s : Hotplug) (event : Uevent) : Finset String :=
  s.watcher.keys.filter fun devAddr => watcherAccepts arch event.devpath devAddr

def Hotplug.begin (arch : TargetArch) (s : Hotplug) (event : Uevent) (order : List String) :
    Option Hotplug :=
  if s.thread = .idle then
    if event.announced arch then
      if order.Nodup ∧ order.toFinset = s.interested arch event then
        some { s with
          pciDeviceMap := s.pciDeviceMap.insert event.devpath event.devname
          thread := .notifying event order order }
      else none
    else some { s with processed := s.processed ++ [event] }
  else none

/-- A message reaches the channel unless the receiver is gone. -/
def Call.notify (call : Call) (name : String) : Call :=
  match call.phase with
  | .returned _ => call
  | _ => { call with inbox := call.inbox ++ [name] }

def Hotplug.send (s : Hotplug) : Option Hotplug :=
  match s.thread with
  | .notifying event (devAddr :: toSend) toRemove =>
    match s.watcher.lookup devAddr with
    | some c => some { s with
        calls := s.calls.update c fun call => call.notify event.devname
        thread := .notifying event toSend toRemove }
    | none => none
  | _ => none

def Hotplug.remove (s : Hotplug) : Option Hotplug :=
  match s.thread with
  | .notifying event [] (devAddr :: toRemove) => some { s with
      watcher := s.watcher.erase devAddr
      thread := .notifying event [] toRemove }
  | _ => none

def Hotplug.release (s : Hotplug) : Option Hotplug :=
  match s.thread with
  | .notifying event [] [] => some { s with
      thread := .idle
      processed := s.processed ++ [event] }
  | _ => none

def Hotplug.step (arch : TargetArch) (s : Hotplug) : HotplugAction → Option Hotplug
  | .lookup c devAddr found => s.lookupOrRegister c devAddr found
  | .receive c => s.receive c
  | .timeout c => s.timeout c
  | .giveUp c => s.giveUp c
  | .begin event order => s.begin arch event order
  | .send => s.send
  | .remove => s.remove
  | .release => s.release

def Hotplug.empty : Hotplug where
  pciDeviceMap := ∅
  watcher := ∅
  calls := ∅
  thread := .idle
  processed := []

/-- Calls of `get_device_name` beside the uevent thread. -/
def hotplug (arch : TargetArch) : System Hotplug HotplugAction where
  init s := s = .empty
  step := Hotplug.step arch

end KataAgent
