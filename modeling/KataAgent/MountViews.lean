import KataAgent.TreePaths

namespace MountViews
open TreePaths
set_option autoImplicit true

/-- What a path lookup comes to: a file of a file system, through a mount. -/
structure Obj (φ σ : Type) where
  file : φ
  dir : Bool
  /-- A mount has its root here. -/
  mounted : Bool
  readonly : Bool
  super : σ
  deriving DecidableEq, Repr

/-- What a process sees at each place. A place is the list of the names on the way up to the root,
and what is above something is a directory. -/
structure View (α φ σ : Type) where
  sees : List α → Option (Obj φ σ)
  root : ∃ o, sees [] = some o ∧ o.dir = true
  parents : ∀ name above o, sees (name :: above) = some o → ∃ d, sees above = some d ∧ d.dir = true

def Obj.mount (o : Obj φ σ) : Obj φ σ := { o with mounted := true }

def Obj.lock (o : Obj φ σ) : Obj φ σ := { o with readonly := true }

section
variable {α φ σ : Type} [DecidableEq α] {v w : View α φ σ} {p q x y : List α} {o a b : Obj φ σ}
  {deep : Bool}

omit [DecidableEq α] in
theorem View.ext_sees (h : ∀ x, v.sees x = w.sees x) : v = w := by
  obtain ⟨f, _, _⟩ := v
  obtain ⟨g, _, _⟩ := w
  cases (funext h : f = g)
  rfl

/-- No mount has its root on the way down from `p` to the place. -/
def View.Within (v : View α φ σ) (p x : List α) : Prop :=
  p <:+ x ∧ ∀ y ∈ x.tails, p <:+ y → y ≠ p → ∀ o ∈ v.sees y, o.mounted = false

instance : Decidable (View.Within v p x) := inferInstanceAs (Decidable (_ ∧ ∀ _ ∈ _, _))

omit [DecidableEq α] in
theorem View.within_iff : v.Within p x ↔
    p <:+ x ∧ ∀ y, y <:+ x → p <:+ y → y ≠ p → ∀ o, v.sees y = some o → o.mounted = false := by
  rw [View.Within]
  refine and_congr_right fun _ => forall_congr' fun y => ?_
  rw [List.mem_tails]
  rfl

omit [DecidableEq α] in
theorem View.within_self (v : View α φ σ) (p : List α) : v.Within p p := by
  refine View.within_iff.2 ⟨List.suffix_rfl, fun y hy hp hne => ?_⟩
  exact absurd (hy.eq_of_length_le hp.length_le) hne

omit [DecidableEq α] in
theorem View.Within.above (h : v.Within p (name :: x)) (hp : p <:+ x) : v.Within p x := by
  obtain ⟨-, h⟩ := View.within_iff.1 h
  exact View.within_iff.2 ⟨hp, fun y hy => h y (hy.trans (List.suffix_cons _ _))⟩

/-- A bind mount of what is at `q` on `p`, with the mounts below it or without. What a mount hides
is in neither. -/
def View.bindSees (v : View α φ σ) (deep : Bool) (q p x : List α) : Option (Obj φ σ) :=
  if p <:+ x then
    if deep = true ∨ v.Within q (x.take (x.length - p.length) ++ q) then
      (v.sees (x.take (x.length - p.length) ++ q)).map fun o => if x = p then o.mount else o
    else none
  else v.sees x

theorem View.bindSees_below (v : View α φ σ) (deep : Bool) (q p r : List α) :
    v.bindSees deep q p (r ++ p) = if deep = true ∨ v.Within q (r ++ q) then
      (v.sees (r ++ q)).map fun o => if r = [] then o.mount else o else none := by
  have htake : (r ++ p).take ((r ++ p).length - p.length) = r := by
    rw [List.length_append, Nat.add_sub_cancel, List.take_left]
  rw [View.bindSees, if_pos (List.suffix_append r p), htake]
  simp only [List.append_left_eq_self]

theorem View.bindSees_beside (h : ¬ p <:+ x) : v.bindSees deep q p x = v.sees x := if_neg h

theorem View.bindSees_dir (hq : v.sees q = some a) (hp : v.sees p = some b)
    (hd : a.dir = b.dir) (h : v.sees x = some o) (hdir : o.dir = true) (hx : x <:+ p) :
    ∃ d, v.bindSees deep q p x = some d ∧ d.dir = true := by
  by_cases hxp : x = p
  · cases hxp
    cases hp.symm.trans h
    have hb := View.bindSees_below v deep q p []
    rw [List.nil_append, List.nil_append, if_pos (.inr (v.within_self q)), hq] at hb
    exact ⟨a.mount, hb, hd.trans hdir⟩
  · rw [View.bindSees_beside fun hp' => hxp (hx.eq_of_length_le hp'.length_le)]
    exact ⟨o, h, hdir⟩

theorem View.bindSees_root (hq : v.sees q = some a) (hp : v.sees p = some b)
    (hd : a.dir = b.dir) : ∃ o, v.bindSees deep q p [] = some o ∧ o.dir = true := by
  obtain ⟨o, ho, hdir⟩ := v.root
  exact View.bindSees_dir hq hp hd ho hdir List.nil_suffix

theorem View.bindSees_parents (hq : v.sees q = some a) (hp : v.sees p = some b)
    (hd : a.dir = b.dir) (name : α) (above : List α) (o : Obj φ σ)
    (h : v.bindSees deep q p (name :: above) = some o) :
    ∃ d, v.bindSees deep q p above = some d ∧ d.dir = true := by
  by_cases hx : p <:+ name :: above
  · rcases List.suffix_cons_iff.1 hx with rfl | ha
    · -- what is mounted on is above nothing of the mount
      obtain ⟨d, hdir, htrue⟩ := v.parents name above b hp
      exact View.bindSees_dir hq hp hd hdir htrue (List.suffix_cons name above)
    · obtain ⟨r, rfl⟩ := ha
      have hb := View.bindSees_below v deep q p (name :: r)
      rw [List.cons_append] at hb
      rw [hb] at h
      split at h
      · rename_i hdeep
        obtain ⟨o', ho', -⟩ := Option.map_eq_some_iff.1 h
        obtain ⟨d, hsees, htrue⟩ := v.parents name (r ++ q) o' ho'
        have hdeep' : deep = true ∨ v.Within q (r ++ q) :=
          hdeep.imp_right fun hw => hw.above (List.suffix_append r q)
        rw [View.bindSees_below, if_pos hdeep', hsees]
        refine ⟨_, rfl, ?_⟩
        split
        · exact htrue
        · exact htrue
      · cases h
  · rw [View.bindSees_beside hx] at h
    obtain ⟨d, hsees, htrue⟩ := v.parents name above o h
    by_cases ha : p <:+ above
    · exact absurd (ha.trans (List.suffix_cons name above)) hx
    · exact ⟨d, (View.bindSees_beside ha).trans hsees, htrue⟩

/-- A directory goes on a directory, anything else on anything else. -/
def View.bind (v : View α φ σ) (deep : Bool) (q p : List α) : Option (View α φ σ) :=
  match hq : v.sees q, hp : v.sees p with
  | some a, some b =>
    if hd : a.dir = b.dir then
      some ⟨v.bindSees deep q p, View.bindSees_root hq hp hd, View.bindSees_parents hq hp hd⟩
    else none
  | _, _ => none

/-- A change of what is seen that keeps what is there and which of it are directories. -/
def View.remap (v : View α φ σ) (f : List α → Obj φ σ → Obj φ σ)
    (hf : ∀ x o, (f x o).dir = o.dir) : View α φ σ where
  sees x := (v.sees x).map (f x)
  root := by
    obtain ⟨o, ho, hd⟩ := v.root
    exact ⟨f [] o, by rw [ho]; rfl, (hf [] o).trans hd⟩
  parents := by
    intro name above o h
    obtain ⟨o', ho', -⟩ := Option.map_eq_some_iff.1 h
    obtain ⟨d, hd, hdir⟩ := v.parents name above o' ho'
    exact ⟨f above d, by rw [hd]; rfl, (hf above d).trans hdir⟩

omit [DecidableEq α] in
@[simp] theorem View.remap_sees {f : List α → Obj φ σ → Obj φ σ}
    {hf : ∀ x o, (f x o).dir = o.dir} : (v.remap f hf).sees x = (v.sees x).map (f x) := rfl

omit [DecidableEq α] in
theorem View.remap_dir {f : List α → Obj φ σ → Obj φ σ} {hf : ∀ x o, (f x o).dir = o.dir}
    (x : List α) : ((v.remap f hf).sees x).map Obj.dir = (v.sees x).map Obj.dir := by
  rw [View.remap_sees, Option.map_map]
  congr 1
  funext o
  exact hf x o

omit [DecidableEq α] in
theorem lockIf_dir (c : Prop) [Decidable c] (o : Obj φ σ) :
    (if c then o.lock else o).dir = o.dir := by
  split
  · rfl
  · rfl

/-- A remount of the mount at `p` with `MS_BIND` makes that mount read-only. -/
def View.lock (v : View α φ σ) (p : List α) : View α φ σ :=
  v.remap (fun x o => if v.Within p x then o.lock else o) fun _ _ => lockIf_dir _ _

/-- Without it, the file system. -/
def View.lockSuper [DecidableEq σ] (v : View α φ σ) (s : σ) : View α φ σ :=
  v.remap (fun _ o => if o.super = s then o.lock else o) fun _ _ => lockIf_dir _ _

def View.mountSelf (v : View α φ σ) (p : List α) : View α φ σ :=
  v.remap (fun x o => if x = p then o.mount else o) fun _ _ => by
    split
    · rfl
    · rfl

/-- A file on files. -/
def View.cover (v : View α φ σ) (a : Obj φ σ) (p : List α) : View α φ σ :=
  v.remap (fun x o => if x = p ∧ o.dir = a.dir then a.mount else o) fun _ _ => by
    split
    · rename_i h
      exact h.2.symm
    · rfl

omit [DecidableEq α] in
/-- Nothing is below a file. -/
theorem View.sees_below_file (h : v.sees p = some o) (hf : o.dir = false) {r : List α}
    (hr : r ≠ []) : v.sees (r ++ p) = none := by
  induction r with
  | nil => exact absurd rfl hr
  | cons name r ih =>
    cases hs : v.sees (name :: r ++ p) with
    | none => rfl
    | some o' =>
      obtain ⟨d, hd, htrue⟩ := v.parents name (r ++ p) o' hs
      cases r with
      | nil =>
        cases h.symm.trans hd
        cases hf.symm.trans htrue
      | cons name' r => cases (ih (List.cons_ne_nil _ _)).symm.trans hd

theorem View.bind_eq (deep : Bool) (hq : v.sees q = some a) (hp : v.sees p = some b)
    (hd : a.dir = b.dir) :
    ∃ w, v.bind deep q p = some w ∧ ∀ x, w.sees x = v.bindSees deep q p x := by
  rw [View.bind]
  split
  · rename_i a' b' hq' hp'
    cases hq.symm.trans hq'
    cases hp.symm.trans hp'
    exact ⟨_, dif_pos hd, fun _ => rfl⟩
  · rename_i hno
    exact (hno a b hq hp).elim

theorem View.bind_eq_none (hq : v.sees q = some a) (hp : v.sees p = some b)
    (hd : a.dir ≠ b.dir) : v.bind deep q p = none := by
  rw [View.bind]
  split
  · rename_i a' b' hq' hp'
    cases hq.symm.trans hq'
    cases hp.symm.trans hp'
    exact dif_neg hd
  · rfl

theorem View.bind_self (hp : v.sees p = some o) : v.bind true p p = some (v.mountSelf p) := by
  obtain ⟨w, hw, hsees⟩ := View.bind_eq true hp hp rfl
  rw [hw]
  congr 1
  apply View.ext_sees
  intro x
  rw [hsees]
  by_cases hx : p <:+ x
  · obtain ⟨r, rfl⟩ := hx
    rw [View.bindSees_below, if_pos (.inl rfl), View.mountSelf, View.remap_sees]
    simp only [List.append_left_eq_self]
  · rw [View.bindSees_beside hx, View.mountSelf, View.remap_sees]
    have hne : x ≠ p := fun h => hx (h ▸ List.suffix_rfl)
    simp only [if_neg hne, Option.map_id_fun', id]

theorem View.bind_file (hq : v.sees q = some a) (ha : a.dir = false) (hp : v.sees p = some b)
    (hb : b.dir = false) : v.bind deep q p = some (v.cover a p) := by
  obtain ⟨w, hw, hsees⟩ := View.bind_eq deep hq hp (ha.trans hb.symm)
  rw [hw]
  congr 1
  apply View.ext_sees
  intro x
  rw [hsees]
  by_cases hx : p <:+ x
  · obtain ⟨r, rfl⟩ := hx
    rw [View.bindSees_below, View.cover, View.remap_sees]
    by_cases hr : r = []
    · cases hr
      rw [List.nil_append, List.nil_append, if_pos (.inr (v.within_self q)), hq, hp]
      simp only [Option.map_some, if_true, true_and, ha, hb]
    · rw [View.sees_below_file hq ha hr, View.sees_below_file hp hb hr]
      exact ite_self _
  · rw [View.bindSees_beside hx, View.cover, View.remap_sees]
    have hne : x ≠ p := fun h => hx (h ▸ List.suffix_rfl)
    simp only [if_neg (fun h : x = p ∧ _ => hne h.1), Option.map_id_fun', id]

/-- Files on files, all the same one. -/
def View.covered (v : View α φ σ) (a : Obj φ σ) (ps : List (List α)) : View α φ σ :=
  v.remap (fun x o => if x ∈ ps ∧ o.dir = a.dir then a.mount else o) fun _ _ => by
    split
    · rename_i h
      exact h.2.symm
    · rfl

theorem View.covered_sees {ps : List (List α)} : (v.covered a ps).sees x =
    (v.sees x).map fun o => if x ∈ ps ∧ o.dir = a.dir then a.mount else o := rfl

theorem View.covered_dir {ps : List (List α)} (x : List α) :
    ((v.covered a ps).sees x).map Obj.dir = (v.sees x).map Obj.dir := by
  rw [View.covered]
  apply View.remap_dir

theorem View.covered_nil (v : View α φ σ) (a : Obj φ σ) : v.covered a [] = v := by
  apply View.ext_sees
  intro x
  simp [View.covered_sees]

theorem View.covered_congr {ps qs : List (List α)} (h : ∀ x, x ∈ ps ↔ x ∈ qs) :
    v.covered a ps = v.covered a qs := by
  apply View.ext_sees
  intro x
  simp only [View.covered_sees, h]

/-- To cover a directory with a file changes nothing. -/
theorem View.covered_cons_dir (hp : v.sees p = some o) (hd : o.dir ≠ a.dir)
    (ps : List (List α)) : v.covered a (p :: ps) = v.covered a ps := by
  apply View.ext_sees
  intro x
  rw [View.covered_sees, View.covered_sees]
  by_cases hx : x = p
  · rw [hx, hp]
    simp [hd]
  · simp [hx]

theorem View.cover_covered (v : View α φ σ) (a : Obj φ σ) (ps : List (List α)) (p : List α) :
    (v.covered a ps).cover a p = v.covered a (p :: ps) := by
  apply View.ext_sees
  intro x
  rw [View.cover, View.remap_sees, View.covered_sees, View.covered_sees, Option.map_map]
  congr 1
  funext o
  by_cases hx : x = p
  · by_cases hd : o.dir = a.dir
    · by_cases hm : p ∈ ps
      · simp [hx, hd, hm, Obj.mount]
      · simp [hx, hd, hm]
    · simp [hx, hd]
  · simp [hx]

variable [DecidableEq σ] {ms qs : List (List α)} {ss : List σ}

/-- Mounts of places on themselves, and read-only remounts of mounts and of file systems. -/
def View.sealed (v : View α φ σ) (ms qs : List (List α)) (ss : List σ) : View α φ σ :=
  v.remap (fun x o => { o with
    mounted := o.mounted || decide (x ∈ ms)
    readonly := o.readonly || decide (∃ q ∈ qs, v.Within q x) || decide (o.super ∈ ss) })
    fun _ _ => rfl

omit [DecidableEq α] [DecidableEq σ] in
theorem View.remap_sees_eq_some {f : List α → Obj φ σ → Obj φ σ}
    {hf : ∀ x o, (f x o).dir = o.dir} :
    (v.remap f hf).sees x = some o ↔ ∃ a, v.sees x = some a ∧ f x a = o :=
  Option.map_eq_some_iff

theorem View.sealed_sees : (v.sealed ms qs ss).sees x = (v.sees x).map fun o => { o with
    mounted := o.mounted || decide (x ∈ ms)
    readonly := o.readonly || decide (∃ q ∈ qs, v.Within q x) || decide (o.super ∈ ss) } := rfl

/-- What becomes of a place. -/
structure Obj.Sealed (o o' : Obj φ σ) (mount readonly : Prop) : Prop where
  file : o'.file = o.file
  dir : o'.dir = o.dir
  super : o'.super = o.super
  mounted : o'.mounted = true ↔ o.mounted = true ∨ mount
  readonly : o'.readonly = true ↔ o.readonly = true ∨ readonly

theorem View.sealed_some (ms qs : List (List α)) (ss : List σ) (h : v.sees x = some o) :
    ∃ o', (v.sealed ms qs ss).sees x = some o' ∧
      o.Sealed o' (x ∈ ms) ((∃ q ∈ qs, v.Within q x) ∨ o.super ∈ ss) := by
  refine ⟨_, View.remap_sees_eq_some.2 ⟨o, h, rfl⟩, rfl, rfl, rfl, ?_, ?_⟩
  · rw [Bool.or_eq_true, decide_eq_true_iff]
  · rw [Bool.or_eq_true, Bool.or_eq_true, decide_eq_true_iff, decide_eq_true_iff, or_assoc]

theorem View.of_sealed_some (h : (v.sealed ms qs ss).sees x = some a) :
    ∃ o, v.sees x = some o ∧ o.Sealed a (x ∈ ms) ((∃ q ∈ qs, v.Within q x) ∨ o.super ∈ ss) := by
  obtain ⟨o, ho, -⟩ := Option.map_eq_some_iff.1 h
  obtain ⟨o', ho', hs⟩ := View.sealed_some ms qs ss ho
  cases h.symm.trans ho'
  exact ⟨o, ho, hs⟩

theorem View.sealed_dir (x : List α) :
    ((v.sealed ms qs ss).sees x).map Obj.dir = (v.sees x).map Obj.dir := by
  rw [View.sealed]
  apply View.remap_dir

theorem View.sealed_nil (v : View α φ σ) : v.sealed [] [] [] = v := by
  apply View.ext_sees
  intro x
  simp [View.sealed_sees]

theorem View.sealed_congr {ms' qs' : List (List α)} {ss' : List σ} (hm : ∀ x, x ∈ ms ↔ x ∈ ms')
    (hq : ∀ x, x ∈ qs ↔ x ∈ qs') (hs : ∀ x, x ∈ ss ↔ x ∈ ss') :
    v.sealed ms qs ss = v.sealed ms' qs' ss' := by
  apply View.ext_sees
  intro x
  simp only [View.sealed_sees, hm, hq, hs]

theorem View.mountSelf_sealed (v : View α φ σ) (ms qs : List (List α)) (ss : List σ)
    (p : List α) : (v.sealed ms qs ss).mountSelf p = v.sealed (p :: ms) qs ss := by
  apply View.ext_sees
  intro x
  rw [View.mountSelf, View.remap_sees, View.sealed_sees, View.sealed_sees, Option.map_map]
  congr 1
  funext o
  by_cases hx : x = p
  · simp [hx, Obj.mount]
  · simp [hx]

/-- With every new mount read-only, it does not matter which of them a place is on. -/
theorem View.within_sealed (v : View α φ σ) (ss : List σ) (x : List α)
    (h : ∀ m ∈ ms, m ≠ p → m ∈ qs) :
    (v.sealed ms qs ss).Within p x ∨ (∃ q ∈ qs, v.Within q x) ↔
      v.Within p x ∨ ∃ q ∈ qs, v.Within q x := by
  constructor
  · rintro (hw | hq)
    · obtain ⟨hp, hw⟩ := View.within_iff.1 hw
      refine .inl (View.within_iff.2 ⟨hp, fun y hy hpy hne o ho => ?_⟩)
      have hm := hw y hy hpy hne _ (View.remap_sees_eq_some.2 ⟨o, ho, rfl⟩)
      exact (Bool.or_eq_false_iff.1 hm).1
    · exact .inr hq
  · rintro (hw | hq)
    · by_cases hq : ∃ q ∈ qs, v.Within q x
      · exact .inr hq
      · obtain ⟨hp, hw⟩ := View.within_iff.1 hw
        refine .inl (View.within_iff.2 ⟨hp, fun y hy hpy hne o ho => ?_⟩)
        obtain ⟨a, ha, rfl⟩ := View.remap_sees_eq_some.1 ho
        refine Bool.or_eq_false_iff.2 ⟨hw y hy hpy hne a ha, decide_eq_false fun hm => ?_⟩
        -- a new mount between the two would have the place on it
        refine hq ⟨y, h y hm hne, View.within_iff.2 ⟨hy, fun z hz hyz hzy => ?_⟩⟩
        refine hw z hz (hpy.trans hyz) fun hzp => hzy ?_
        exact (hzp ▸ hpy : z <:+ y).eq_of_length_le hyz.length_le
    · exact .inr hq

theorem View.lock_sealed (h : ∀ m ∈ ms, m ≠ p → m ∈ qs) :
    (v.sealed ms qs ss).lock p = v.sealed ms (p :: qs) ss := by
  apply View.ext_sees
  intro x
  have hw := View.within_sealed v ss x h
  have hcons : (∃ q ∈ p :: qs, v.Within q x) ↔ v.Within p x ∨ ∃ q ∈ qs, v.Within q x := by
    rw [List.exists_mem_cons_iff]
  rw [View.lock, View.remap_sees, View.sealed_sees, View.sealed_sees, Option.map_map]
  congr 1
  funext o
  simp only [Function.comp_apply, decide_eq_decide.2 (hcons.trans hw.symm)]
  by_cases hp : (v.sealed ms qs ss).Within p x
  · simp [hp, Obj.lock]
  · simp [hp]

theorem View.lockSuper_sealed (v : View α φ σ) (ms qs : List (List α)) (ss : List σ) (s : σ) :
    (v.sealed ms qs ss).lockSuper s = v.sealed ms qs (s :: ss) := by
  apply View.ext_sees
  intro x
  rw [View.lockSuper, View.remap_sees, View.sealed_sees, View.sealed_sees, Option.map_map]
  congr 1
  funext o
  by_cases hs : o.super = s
  · simp [hs, Obj.lock]
  · simp [hs]

end

section
variable {α φ σ : Type} {v w : View α φ σ} {x y : List α} {parts : List (Option (Step α))}

/-- Why a path leads nowhere. -/
inductive Miss where
  | absent
  | notDir
  deriving DecidableEq, Repr

/-- Follow a path, whose every part asks for a directory; an empty one, or a dot, stays there. -/
def View.find (v : View α φ σ) : List α → List (Option (Step α)) → Except Miss (List α)
  | x, [] => if (v.sees x).isSome then .ok x else .error .absent
  | x, part :: parts =>
    match v.sees x with
    | none => .error .absent
    | some o =>
      if o.dir then v.find (part.elim x fun s => s.apply x) parts else .error .notDir

theorem View.find_congr (h : ∀ x, (v.sees x).map Obj.dir = (w.sees x).map Obj.dir)
    (x : List α) (parts : List (Option (Step α))) : v.find x parts = w.find x parts := by
  induction parts generalizing x with
  | nil =>
    have hx := congrArg Option.isSome (h x)
    rw [Option.isSome_map, Option.isSome_map] at hx
    rw [View.find, View.find, hx]
  | cons part parts ih =>
    have hx := h x
    rw [View.find, View.find]
    cases hv : v.sees x with
    | none =>
      rw [hv] at hx
      rw [Option.map_eq_none_iff.1 hx.symm]
    | some o =>
      rw [hv] at hx
      obtain ⟨o', ho', hd⟩ := Option.map_eq_some_iff.1 hx.symm
      rw [ho']
      dsimp only
      rw [hd, ih]

theorem View.find_sees (h : v.find x parts = .ok y) : ∃ o, v.sees y = some o := by
  induction parts generalizing x with
  | nil =>
    rw [View.find] at h
    split at h
    · rename_i hs
      cases h
      exact Option.isSome_iff_exists.1 hs
    · cases h
  | cons part parts ih =>
    rw [View.find] at h
    split at h
    · cases h
    · split at h
      · exact ih h
      · cases h

end

end MountViews
