import KataAgent.ContainerStart
import KataAgent.Transition

namespace KataAgent
open Fallible Transition
set_option autoImplicit true

inductive Party where
  | agent
  | first
  | second
  deriving DecidableEq, Repr

/-- A start of a container process, with the pids that its two forks return. -/
structure SyncRun where
  args : StartArgs
  firstPid : Int
  secondPid : Int

def SyncRun.agentProgram (r : SyncRun) : List Instr := joinNamespacesParent r.args

/-- Without a pid namespace the first child is the container process itself. -/
def SyncRun.firstProgram (r : SyncRun) : List Instr :=
  joinNamespacesChild r.args ++
    if r.args.pidns then joinNamespacesRelay r.secondPid
    else joinNamespacesContainer r.args ++ startSetup r.args

def SyncRun.secondProgram (r : SyncRun) : List Instr :=
  onlyIf r.args.pidns (joinNamespacesContainer r.args ++ startSetup r.args)

def SyncRun.container (r : SyncRun) : Party :=
  if r.args.pidns then .second else .first

def SyncRun.finalPid (r : SyncRun) : Int :=
  if r.args.pidns then r.secondPid else r.firstPid

/-- The word that a position of the protocol expects. -/
def SyncRun.word (r : SyncRun) (token : SyncToken) : SyncWord :=
  ⟨token, if token = .pid then r.secondPid else 0⟩

/-- What each party has still to do, and the words on the pipes. -/
structure SyncState where
  agent : List Instr
  first : List Instr
  second : List Instr
  forked : Bool
  pipe : Pipe → List SyncWord
  /-- The local `pid` of the agent. -/
  pid : Int

def SyncState.program (s : SyncState) : Party → List Instr
  | .agent => s.agent
  | .first => s.first
  | .second => s.second

def SyncState.advance (s : SyncState) (p : Party) (rest : List Instr) : SyncState :=
  match p with
  | .agent => { s with agent := rest }
  | .first => { s with first := rest }
  | .second => { s with second := rest }

def SyncState.setPipe (s : SyncState) (c : Pipe) (ws : List SyncWord) : SyncState :=
  { s with pipe := fun d => if d = c then ws else s.pipe d }

def SyncState.present (s : SyncState) (p : Party) : Prop := p = .second → s.forked

instance : Decidable (SyncState.present s p) := inferInstanceAs (Decidable (_ → _))

def SyncState.receive (s : SyncState) (p : Party) (token : SyncToken) (w : SyncWord) : SyncState :=
  if p = .agent ∧ token = .pid then { s with pid := w.value } else s

/-- One instruction of one party, none of whose calls fails. A read waits for a word. -/
def SyncState.step (s : SyncState) (p : Party) : Option SyncState :=
  if s.present p then
    match s.program p with
    | [] => none
    | .read c token :: rest =>
      match s.pipe c with
      | [] => none
      | w :: ws => some (((s.advance p rest).setPipe c ws).receive p token w)
    | .write c w :: rest => some ((s.advance p rest).setPipe c (s.pipe c ++ [w]))
    | .fork :: rest => some { s.advance p rest with forked := true }
    | .exit _ :: _ => some (s.advance p [])
    | .fail _ :: _ => none
    | .exec _ _ :: _ => none
    | .call _ :: rest => some (s.advance p rest)
    | .hook _ _ :: rest => some (s.advance p rest)
    | .defer _ :: rest => some (s.advance p rest)
    | .endScope :: rest => some (s.advance p rest)
  else none

def SyncRun.start (r : SyncRun) : SyncState where
  agent := r.agentProgram
  first := r.firstProgram
  second := r.secondProgram
  forked := false
  pipe := fun _ => []
  pid := r.firstPid

/-- The agent and the two children between the fork and the last word to the agent. -/
def SyncRun.system (r : SyncRun) : System SyncState Party where
  init s := s = r.start
  step := SyncState.step

end KataAgent
