import KataAgent.SearchPattern

namespace KataAgent
set_option autoImplicit true

/-- A word of characters, each of a class of its own, or a greedy run of one class. -/
inductive Element (α : Type u) where
  | word (ps : List (α → Bool))
  | run (p : α → Bool)

def Element.Admits : Element α → List α → Prop
  | .word ps, x => List.Forall₂ (fun p c => p c = true) ps x
  | .run p, x => (Piece.plus p).Admits x

/-- The way to take a word from the beginning of a text, if there is one. -/
def takeWord : List (α → Bool) → List α → List (List α × List α)
  | [], cs => [([], cs)]
  | _ :: _, [] => []
  | p :: ps, c :: cs => if p c then (takeWord ps cs).map fun x => (c :: x.1, x.2) else []

/-- How an element can take the beginning of a text, the preferred way first. -/
def Element.takes : Element α → List α → List (List α × List α)
  | .word ps => takeWord ps
  | .run p => (Piece.plus p).takes

/-- The matches at the beginning of a text, each as what its elements take. -/
def ways : List (Element α) → List α → List (List (List α))
  | [], _ => [[]]
  | e :: es, cs => (e.takes cs).flatMap fun x => (ways es x.2).map (x.1 :: ·)

/-- The first match at the leftmost place where there is one. -/
def leftmost (es : List (Element α)) : List α → Option (List (List α))
  | [] => (ways es []).head?
  | c :: cs => (ways es (c :: cs)).head?.or (leftmost es cs)

/-- The one takes more than the other where they first differ. -/
inductive Prefers : List (List α) → List (List α) → Prop where
  | same (xs) : Prefers xs xs
  | longer : y.length < x.length → Prefers (x :: xs) (y :: ys)
  | cons : Prefers xs ys → Prefers (x :: xs) (x :: ys)

theorem mem_takeWord {ps : List (α → Bool)} {cs x rest : List α} :
    (x, rest) ∈ takeWord ps cs ↔ cs = x ++ rest ∧ (Element.word ps).Admits x := by
  induction ps generalizing cs x with
  | nil =>
    rw [takeWord, List.mem_singleton, Element.Admits, List.forall₂_nil_left_iff, Prod.mk.injEq]
    constructor
    · intro ⟨hx, hrest⟩
      rw [hx, hrest]
      exact ⟨rfl, rfl⟩
    · intro ⟨hcs, hx⟩
      rw [hx] at hcs
      exact ⟨hx, hcs.symm⟩
  | cons p ps ih =>
    cases cs with
    | nil =>
      rw [takeWord]
      constructor
      · intro h
        cases h
      · intro ⟨hcs, hx⟩
        rw [(List.append_eq_nil_iff.1 hcs.symm).1] at hx
        cases hx
    | cons c cs =>
      rw [takeWord]
      constructor
      · intro h
        obtain ⟨hc, h⟩ := List.mem_ite_nil_right.1 h
        obtain ⟨⟨y, r⟩, hmem, heq⟩ := List.mem_map.1 h
        cases heq
        obtain ⟨rfl, hy⟩ := ih.1 hmem
        exact ⟨rfl, .cons hc hy⟩
      · intro ⟨heq, hx⟩
        cases hx with
        | @cons _ d _ y hd hy =>
          obtain ⟨rfl, rfl⟩ := List.cons.inj heq
          rw [if_pos hd]
          exact List.mem_map.2 ⟨_, ih.2 ⟨rfl, hy⟩, rfl⟩

theorem Element.mem_takes {e : Element α} {cs x rest : List α} :
    (x, rest) ∈ e.takes cs ↔ cs = x ++ rest ∧ e.Admits x := by
  cases e with
  | word ps => exact mem_takeWord
  | run p => exact Piece.mem_takes_plus

theorem mem_ways {es : List (Element α)} {cs : List α} {xs : List (List α)} :
    xs ∈ ways es cs ↔ ∃ rest, cs = xs.flatten ++ rest ∧ List.Forall₂ Element.Admits es xs := by
  induction es generalizing cs xs with
  | nil =>
    rw [ways, List.mem_singleton]
    constructor
    · intro h
      rw [h]
      exact ⟨cs, rfl, .nil⟩
    · intro ⟨rest, _, h⟩
      cases h
      rfl
  | cons e es ih =>
    rw [ways, List.mem_flatMap]
    constructor
    · intro ⟨⟨x, rest⟩, hx, h⟩
      obtain ⟨ys, hys, rfl⟩ := List.mem_map.1 h
      obtain ⟨rfl, he⟩ := Element.mem_takes.1 hx
      obtain ⟨rest, rfl, hes⟩ := ih.1 hys
      exact ⟨rest, (List.append_assoc _ _ _).symm, .cons he hes⟩
    · intro ⟨rest, heq, h⟩
      cases h with
      | @cons _ x _ ys he hes =>
        rw [List.flatten_cons, List.append_assoc] at heq
        exact ⟨(x, ys.flatten ++ rest), Element.mem_takes.2 ⟨heq, he⟩,
          List.mem_map.2 ⟨ys, ih.2 ⟨rest, rfl, hes⟩, rfl⟩⟩

/-- A longer way to take is always preferred. -/
theorem takes_plus_pairwise (p : α → Bool) (cs : List α) :
    ((Piece.plus p).takes cs).Pairwise fun a b => b.1.length < a.1.length := by
  induction cs with
  | nil => exact .nil
  | cons c cs ih =>
    rw [Piece.takes]
    split
    · apply List.pairwise_append.2
      refine ⟨List.pairwise_map.2 (ih.imp fun h => Nat.succ_lt_succ h), List.pairwise_singleton _ _,
        ?_⟩
      intro a ha b hb
      obtain ⟨⟨x, rest⟩, hx, rfl⟩ := List.mem_map.1 ha
      rw [List.mem_singleton.1 hb]
      exact Nat.succ_lt_succ (List.length_pos_iff.2 (Piece.mem_takes_plus.1 hx).2.1)
    · exact .nil

theorem takeWord_pairwise (ps : List (α → Bool)) (cs : List α) :
    (takeWord ps cs).Pairwise fun a b => b.1.length < a.1.length := by
  induction ps generalizing cs with
  | nil => exact List.pairwise_singleton _ _
  | cons p ps ih =>
    cases cs with
    | nil => exact .nil
    | cons c cs =>
      rw [takeWord]
      split
      · exact List.pairwise_map.2 ((ih cs).imp fun h => Nat.succ_lt_succ h)
      · exact .nil

theorem Element.takes_pairwise (e : Element α) (cs : List α) :
    (e.takes cs).Pairwise fun a b => b.1.length < a.1.length := by
  cases e with
  | word ps => exact takeWord_pairwise ps cs
  | run p => exact takes_plus_pairwise p cs

/-- The first match is preferred to every other one. -/
theorem head_prefers {es : List (Element α)} {cs : List α} {xs ys : List (List α)}
    (h : (ways es cs).head? = some xs) (hy : ys ∈ ways es cs) : Prefers xs ys := by
  induction es generalizing cs xs ys with
  | nil =>
    rw [ways, List.mem_singleton] at hy
    rw [ways, List.head?_cons, Option.some.injEq] at h
    rw [hy, ← h]
    exact .same []
  | cons e es ih =>
    rw [ways] at h hy
    have hsorted := e.takes_pairwise cs
    generalize e.takes cs = l at h hy hsorted
    induction l with
    | nil => cases hy
    | cons x l ihl =>
      obtain ⟨hshort, hsorted⟩ := List.pairwise_cons.1 hsorted
      rw [List.flatMap_cons] at h hy
      cases hx : ways es x.2 with
      | nil =>
        rw [hx] at h hy
        exact ihl h hy hsorted
      | cons w ws =>
        rw [hx, List.map_cons, List.cons_append, List.head?_cons, Option.some.injEq] at h
        cases h
        rcases List.mem_append.1 hy with hy | hy
        · obtain ⟨zs, hzs, rfl⟩ := List.mem_map.1 hy
          exact .cons (ih (by rw [hx, List.head?_cons]) hzs)
        · obtain ⟨x', hx', hy⟩ := List.mem_flatMap.1 hy
          obtain ⟨zs, -, rfl⟩ := List.mem_map.1 hy
          exact .longer (hshort x' hx')

theorem leftmost_of_ne_nil {es : List (Element α)} {cs : List α} (h : ways es cs ≠ []) :
    leftmost es cs = (ways es cs).head? := by
  cases cs with
  | nil => rfl
  | cons c cs =>
    rw [leftmost]
    cases hw : ways es (c :: cs) with
    | nil => exact absurd hw h
    | cons w ws => rfl

theorem leftmost_eq_none {es : List (Element α)} {cs : List α} :
    leftmost es cs = none ↔ ∀ pre rest, cs = pre ++ rest → ways es rest = [] := by
  induction cs with
  | nil =>
    rw [leftmost, List.head?_eq_none_iff]
    constructor
    · intro h pre rest hcs
      rw [(List.append_eq_nil_iff.1 hcs.symm).2]
      exact h
    · intro h
      exact h [] [] rfl
  | cons c cs ih =>
    rw [leftmost, Option.or_eq_none_iff, List.head?_eq_none_iff, ih]
    constructor
    · intro ⟨hhere, hlater⟩ pre rest hcs
      cases pre with
      | nil =>
        rw [List.nil_append] at hcs
        rw [← hcs]
        exact hhere
      | cons d pre => exact hlater pre rest (List.cons.inj hcs).2
    · intro h
      exact ⟨h [] (c :: cs) rfl, fun pre rest hcs => h (c :: pre) rest (congrArg (c :: ·) hcs)⟩

end KataAgent
