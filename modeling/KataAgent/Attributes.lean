import KataAgent.RecordWalk

namespace KataAgent
open Records
set_option autoImplicit true

/-- `struct rtattr`: length and type of an attribute. -/
def rtattr : Format where
  header := 4
  width := 2
  width_le := by decide
  width_le_four := by decide
  header_pos := by decide

def rtaType (b : Bytes) : Nat := field b 2 2

/-- The body of the loop of `parse_attrs`. A pointer to an attribute stands for its bytes. -/
def attrVisit (max : Nat) (b : Bytes) (attrs : List (Option Bytes)) :
    Option (Verdict (List (Option Bytes)) Unit) := do
  let rtype ← load b 2 2
  let len ← load b 0 2
  if rtype < max ∧ attrs[rtype]? = some none then return .past (attrs.set rtype (some (b.take len)))
  return .past attrs

def parseBody (max : Nat) : Body rtattr (List (Option Bytes)) Unit where
  visit := attrVisit max
  past _ := true
  add attrs r :=
    if rtaType r < max ∧ attrs[rtaType r]? = some none then attrs.set (rtaType r) (some r)
    else attrs
  out _ _ := ()
  visit_eq := by
    intro b attrs hf
    have hs : 4 ≤ rtattr.size b := hf.2.1
    have h0 : load b 0 2 = some (rtattr.first b).length := by
      rw [hf.load_first (by omega), hf.length_first]
      exact congrArg some hf.size_first
    have h2 : load b 2 2 = some (rtaType (rtattr.first b)) := hf.load_first (by omega)
    have hfirst : b.take (rtattr.first b).length = rtattr.first b := by
      rw [hf.length_first]
      rfl
    simp only [attrVisit, h0, h2, Option.bind_eq_bind, Option.bind_some, hfirst]
    split
    · rfl
    · rfl

/-- `parse_attrs` on the bytes that the cursor knows. -/
def parseAttrs (max : Nat) (buf : Bytes) (c : Cursor) : Option (List (Option Bytes)) :=
  match (parseBody max).run buf (c.left + 1) c (List.replicate max none) with
  | .fell _ attrs => some attrs
  | _ => none

theorem length_foldl_parse (max : Nat) (rs : List Bytes) (attrs : List (Option Bytes)) :
    (rs.foldl (parseBody max).add attrs).length = attrs.length := by
  induction rs generalizing attrs with
  | nil => rfl
  | cons r rs ih =>
    rw [List.foldl_cons, ih]
    dsimp only [parseBody]
    split
    · rw [List.length_set]
    · rfl

/-- A place in the table is filled by the first attribute of its type, unless it is filled before.
-/
theorem getElem_foldl_parse {max t : Nat} {o : Option Bytes} {attrs : List (Option Bytes)}
    (ht : t < max) (ha : attrs[t]? = some o) (rs : List Bytes) :
    (rs.foldl (parseBody max).add attrs)[t]? =
      some (o.or (rs.find? fun r => rtaType r = t)) := by
  induction rs generalizing attrs o with
  | nil =>
    rw [List.find?_nil, Option.or_none]
    exact ha
  | cons r rs ih =>
    rw [List.foldl_cons]
    by_cases hr : rtaType r = t
    · rw [List.find?_cons_of_pos (by simpa using hr)]
      cases o with
      | none =>
        have hadd : (parseBody max).add attrs r = attrs.set t (some r) := by
          dsimp only [parseBody]
          rw [hr, if_pos ⟨ht, ha⟩]
        rw [hadd, ih (List.getElem?_set_self (List.getElem?_eq_some_iff.1 ha).1)]
        rfl
      | some r' =>
        have hadd : (parseBody max).add attrs r = attrs := by
          dsimp only [parseBody]
          rw [hr, ha, if_neg (by simp)]
        rw [hadd, ih ha]
        rfl
    · rw [List.find?_cons_of_neg (by simpa using hr)]
      refine ih ?_
      dsimp only [parseBody]
      split
      · rw [List.getElem?_set_ne hr, ha]
      · exact ha

/-- The table has a place for each type below `max`, with the first attribute of the type. -/
structure FirstOfEach (max : Nat) (rs : List Bytes) (attrs : List (Option Bytes)) : Prop where
  length_eq : attrs.length = max
  first : ∀ t < max, attrs[t]? = some (rs.find? fun r => rtaType r = t)

theorem parseAttrs_eq (max : Nat) {c : Cursor} (hc : c.In buf)
    (hp : rtattr.Padded (fun _ => true) (c.rest buf)) : ∃ attrs, parseAttrs max buf c = some attrs ∧
      FirstOfEach max (rtattr.records (c.rest buf)) attrs := by
  have hrun := Body.run_eq (B := parseBody max) (s := List.replicate max none) hc hp
    (Nat.lt_succ_self _)
  refine ⟨(rtattr.records (c.rest buf)).foldl (parseBody max).add (List.replicate max none), ?_, ?_,
    fun t ht => ?_⟩
  · rw [parseAttrs, hrun]
    cases hr : (parseBody max).result c (c.rest buf) (List.replicate max none) with
    | on c' s' => exact absurd hr Body.result_not_on
    | outside => exact absurd hr Body.result_inside
    | fell c' s' => rw [Body.result_eq_fell hr]
    | out o =>
      obtain ⟨r, -, ho, -⟩ := Body.result_eq_out hr
      cases ho
  · rw [length_foldl_parse, List.length_replicate]
  · rw [getElem_foldl_parse (o := none) ht (by simp [ht])]
    rfl

/-- `parse_attrs` returns the first attributes among those that the buffer is made of, up to bytes
that start with no attribute. -/
def ParsesFirsts (max : Nat) (buf : Bytes) : Prop :=
  ∃ (attrs : List (Option Bytes)) (rs : List rtattr.Record) (rest : Bytes),
    parseAttrs max buf (.start buf) = some attrs ∧ buf = Format.chain rs ++ rest ∧
      ¬ rtattr.Fits rest ∧ FirstOfEach max (rs.map Format.Record.bytes) attrs

/-- `parse_attrs` is sound and finds the first attributes exactly where each attribute of the buffer
is there with its padding. -/
theorem parseAttrs_iff (max : Nat) (buf : Bytes) (hlt : buf.length < 2 ^ 32) :
    ((parseBody max).Sound buf (.start buf) (List.replicate max none) ∧ ParsesFirsts max buf) ↔
      rtattr.Padded (fun _ => true) buf := by
  have hrest : (Cursor.start buf).rest buf = buf := walked_eq hlt
  have hs := Body.sound_iff (B := parseBody max) (s := List.replicate max none)
    (Cursor.start_in buf)
  rw [hrest] at hs
  refine ⟨fun h => hs.1 h.1, fun hp => ⟨hs.2 hp, ?_⟩⟩
  obtain ⟨rs, rest, hb, hr⟩ := hp.chain
  obtain ⟨attrs, ha, hf⟩ := parseAttrs_eq max (Cursor.start_in buf) (by rwa [hrest])
  have hrec := Format.records_chain rs hr
  rw [← hb] at hrec
  rw [hrest, hrec] at hf
  exact ⟨attrs, rs, rest, ha, hb, hr, hf⟩

/-- Two attributes of five bytes; the first is padded. -/
def unpaddedAttrs : Bytes := [5, 0, 1, 0, 9, 0, 0, 0, 5, 0, 2, 0, 9]

theorem parseAttrs_padded : (parseBody 4).Sound (unpaddedAttrs.take 8)
      (.start (unpaddedAttrs.take 8)) (List.replicate 4 none) ∧
    ParsesFirsts 4 (unpaddedAttrs.take 8) :=
  (parseAttrs_iff 4 (unpaddedAttrs.take 8) (by decide)).2 (by decide)

/-- The padding of the last attribute is not there. -/
theorem parseAttrs_not_sound : ¬ ∀ (max : Nat) (buf : Bytes), buf.length < 2 ^ 32 →
    (parseBody max).Sound buf (.start buf) (List.replicate max none) := by
  intro h
  have hle := (h 4 unpaddedAttrs (by decide)).exact 1 _ _ _ _ rfl rfl
  exact absurd hle (by decide)

end KataAgent
