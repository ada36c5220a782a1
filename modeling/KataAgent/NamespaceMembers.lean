import KataAgent.LastWrite
import Mathlib.Data.Finset.Basic

namespace Namespaces
open LastWrite
set_option autoImplicit true

/-- The namespaces of a process: those that it is in, and those that its next child will be in. -/
structure Member (κ ι : Type) where
  own : κ → ι
  child : κ → ι

/-- What changes the namespaces of a process. After a fork, the child is the one that goes on. -/
inductive Move (κ ι : Type) where
  | join (k : κ) (n : ι)
  | make (ks : Finset κ) (fresh : κ → ι)
  | fork

section
variable {κ ι : Type} [DecidableEq κ]

/-- The namespace of a kind that a move enters. -/
def Move.enters (k : κ) : Move κ ι → Option ι
  | .join k' n => if k' = k then some n else none
  | .make ks fresh => if k ∈ ks then some (fresh k) else none
  | .fork => none

variable (deferred : κ → Prop) [DecidablePred deferred]

/-- A namespace of a deferred kind is entered by the children only. -/
def Member.move (m : Member κ ι) : Move κ ι → Member κ ι
  | .fork => ⟨m.child, m.child⟩
  | x => ⟨fun k => if deferred k then m.own k else (x.enters k).getD (m.own k),
      fun k => (x.enters k).getD (m.child k)⟩

def Member.moves (m : Member κ ι) (xs : List (Move κ ι)) : Member κ ι :=
  xs.foldl (Member.move deferred) m

variable {deferred} {m : Member κ ι} {x : Move κ ι} {xs ys : List (Move κ ι)} {k : κ}

theorem Member.moves_append :
    m.moves deferred (xs ++ ys) = (m.moves deferred xs).moves deferred ys :=
  List.foldl_append

theorem Member.child_move : (m.move deferred x).child k = (x.enters k).getD (m.child k) := by
  cases x with
  | join k' n => rfl
  | make ks fresh => rfl
  | fork => rfl

theorem Member.own_move (hx : x ≠ .fork) : (m.move deferred x).own k =
    if deferred k then m.own k else (x.enters k).getD (m.own k) := by
  cases x with
  | join k' n => rfl
  | make ks fresh => rfl
  | fork => exact absurd rfl hx

/-- The children are put into what was entered last. -/
theorem Member.child_moves (deferred : κ → Prop) [DecidablePred deferred] :
    (m.moves deferred xs).child k = (lastWrite (Move.enters k) xs).getD (m.child k) :=
  register_foldl (Member.move deferred) (fun m => m.child k) (fun _ _ => Member.child_move) m xs

/-- A kind that is not deferred has the process where its children are put. -/
theorem Member.own_moves (hk : ¬ deferred k) (hm : m.own k = m.child k) :
    (m.moves deferred xs).own k = (lastWrite (Move.enters k) xs).getD (m.child k) := by
  rw [← Member.child_moves deferred]
  induction xs generalizing m with
  | nil => exact hm
  | cons x xs ih =>
    apply ih
    by_cases hx : x = .fork
    · rw [hx]
      rfl
    · rw [Member.own_move hx, if_neg hk, hm, Member.child_move]

/-- A process never enters a namespace of a deferred kind. -/
theorem Member.own_of_deferred (hk : deferred k) (hx : .fork ∉ xs) :
    (m.moves deferred xs).own k = m.own k := by
  induction xs generalizing m with
  | nil => rfl
  | cons x xs ih =>
    rw [List.mem_cons, not_or] at hx
    have hstep : (m.move deferred x).own k = m.own k := by
      rw [Member.own_move (Ne.symm hx.1), if_pos hk]
    exact (ih hx.2).trans hstep

/-- The last fork is what puts a process into namespaces of a deferred kind. -/
theorem Member.own_of_fork (xs : List (Move κ ι)) (hk : deferred k) (hy : .fork ∉ ys) :
    (m.moves deferred (xs ++ .fork :: ys)).own k =
      (lastWrite (Move.enters k) xs).getD (m.child k) := by
  rw [Member.moves_append, ← Member.child_moves deferred]
  exact Member.own_of_deferred hk hy

end

end Namespaces
