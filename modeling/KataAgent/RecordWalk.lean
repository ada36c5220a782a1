import KataAgent.Records

namespace Records
set_option autoImplicit true

/-- A pointer into a buffer, and the number of bytes that the loop believes to be left there. -/
structure Cursor where
  off : Nat
  left : Nat
  deriving DecidableEq, Repr

/-- What the body of the loop does with a record: step over it, or leave the loop. -/
inductive Verdict (σ ρ : Type) where
  | past (s : σ)
  | out (r : ρ)
  deriving DecidableEq

inductive Walk (σ ρ : Type) where
  | on (c : Cursor) (s : σ)
  | fell (c : Cursor) (s : σ)
  | out (r : ρ)
  /-- A byte that is not in the buffer was read. -/
  | outside
  deriving DecidableEq

/-- The body of a loop, with what it does to a whole record. It may read past the record only where
the record is not whole. -/
structure Body (F : Format) (σ ρ : Type) where
  visit : Bytes → σ → Option (Verdict σ ρ)
  past : Bytes → Bool
  add : σ → Bytes → σ
  out : σ → Bytes → ρ
  visit_eq : ∀ {b s}, F.Fits b → visit b s = some (if past (F.first b) then
    .past (add s (F.first b)) else .out (out s (F.first b)))

variable {F : Format} {σ ρ : Type} {B : Body F σ ρ} {buf : Bytes} {c : Cursor} {s : σ}

/-- The guard of the loop. It reads the length only where a header may be. -/
def Format.ok (F : Format) (buf : Bytes) (c : Cursor) : Option Bool :=
  if c.left < F.header then some false
  else (load buf c.off F.width).map fun n => decide (F.header ≤ n ∧ n ≤ c.left)

/-- The step over a record, in 32-bit arithmetic. -/
def Cursor.next (c : Cursor) (size : Nat) : Cursor :=
  ⟨c.off + align32 size, (c.left + 2 ^ 32 - align32 size) % 2 ^ 32⟩

def Body.step (B : Body F σ ρ) (buf : Bytes) (c : Cursor) (s : σ) : Walk σ ρ :=
  match F.ok buf c with
  | none => .outside
  | some false => .fell c s
  | some true =>
    match B.visit (buf.drop c.off) s with
    | none => .outside
    | some (.out r) => .out r
    | some (.past s) => .on (c.next (F.size (buf.drop c.off))) s

/-- The loop after at most `n` passes. -/
def Body.run (B : Body F σ ρ) (buf : Bytes) : Nat → Cursor → σ → Walk σ ρ
  | 0, c, s => .on c s
  | n + 1, c, s =>
    match B.step buf c s with
    | .on c s => B.run buf n c s
    | e => e

/-- The loop ends, reads only the buffer, and subtracts no more than is left. -/
structure Body.Sound (B : Body F σ ρ) (buf : Bytes) (c : Cursor) (s : σ) : Prop where
  ends : ∃ n, ∀ c' s', B.run buf n c s ≠ .on c' s'
  inside : ∀ n, B.run buf n c s ≠ .outside
  exact : ∀ n c₁ s₁ c₂ s₂, B.run buf n c s = .on c₁ s₁ → B.step buf c₁ s₁ = .on c₂ s₂ →
    align32 (F.size (buf.drop c₁.off)) ≤ c₁.left

theorem Body.run_on (h : B.step buf c s = .on c' s') :
    B.run buf (n + 1) c s = B.run buf n c' s' := by
  rw [Body.run, h]

theorem Body.run_end (h : B.step buf c s = e) (he : ∀ c' s', e ≠ .on c' s') :
    B.run buf (n + 1) c s = e := by
  rw [Body.run, h]
  cases e with
  | on c' s' => exact absurd rfl (he c' s')
  | fell => rfl
  | out => rfl
  | outside => rfl

theorem Body.step_fell (h : B.step buf c s = .fell c' s') : F.ok buf c' = some false := by
  rw [Body.step] at h
  rcases hg : F.ok buf c with _ | _ | _
  · rw [hg] at h
    cases h
  · rw [hg] at h
    cases h
    exact hg
  · rw [hg] at h
    dsimp only at h
    rcases hv : B.visit (buf.drop c.off) s with _ | _ | _
    · rw [hv] at h
      cases h
    · rw [hv] at h
      cases h
    · rw [hv] at h
      cases h

/-- The bytes of which the cursor knows. -/
def Cursor.rest (c : Cursor) (buf : Bytes) : Bytes := (buf.drop c.off).take c.left

structure Cursor.In (c : Cursor) (buf : Bytes) : Prop where
  le : c.off + c.left ≤ buf.length
  lt : c.left < 2 ^ 32

theorem Cursor.In.length_rest (h : c.In buf) : (c.rest buf).length = c.left := by
  have hle := h.le
  rw [Cursor.rest, List.length_take, List.length_drop]
  omega

theorem Cursor.size_rest (h : F.header ≤ c.left) : F.size (c.rest buf) = F.size (buf.drop c.off) :=
  Format.size_take (F.width_le.trans h)

theorem Cursor.In.ok (h : c.In buf) : F.ok buf c = some (decide (F.Fits (c.rest buf))) := by
  have hlen := h.length_rest
  have hle := h.le
  rw [Format.ok]
  by_cases hh : c.left < F.header
  · rw [if_pos hh, decide_eq_false]
    exact fun hf => absurd hf.1 (by omega)
  · have hw := F.width_le
    rw [if_neg hh, load_eq (by omega), Option.map_some]
    have hs : F.size (c.rest buf) = F.size (buf.drop c.off) :=
      Cursor.size_rest (Nat.le_of_not_lt hh)
    congr 1
    apply decide_eq_decide.2
    change _ ≤ F.size (buf.drop c.off) ∧ F.size (buf.drop c.off) ≤ _ ↔ _
    rw [← hs, Format.Fits, hlen]
    omega

theorem Cursor.In.fits (h : c.In buf) (hf : F.Fits (c.rest buf)) : F.Fits (buf.drop c.off) ∧
    F.first (buf.drop c.off) = F.first (c.rest buf) ∧
      F.size (buf.drop c.off) = F.size (c.rest buf) := by
  have hlen := h.length_rest
  have hle := h.le
  have hd : (buf.drop c.off).length = buf.length - c.off := List.length_drop
  obtain ⟨h1, h2, h3⟩ := hf
  rw [hlen] at h1 h3
  have hs : F.size (c.rest buf) = F.size (buf.drop c.off) := Cursor.size_rest h1
  refine ⟨⟨by omega, by omega, by omega⟩, ?_, hs.symm⟩
  change (buf.drop c.off).take _ = ((buf.drop c.off).take c.left).take (F.size (c.rest buf))
  rw [List.take_take, Nat.min_eq_left h3, hs]

theorem Cursor.In.step_fell (h : c.In buf) (hf : ¬ F.Fits (c.rest buf)) :
    B.step buf c s = .fell c s := by
  rw [Body.step, h.ok, decide_eq_false hf]

theorem Cursor.In.step_out (h : c.In buf) (hf : F.Fits (c.rest buf))
    (ho : B.past (F.first (c.rest buf)) = false) :
    B.step buf c s = .out (B.out s (F.first (c.rest buf))) := by
  obtain ⟨hd, h1, -⟩ := h.fits hf
  rw [Body.step, h.ok, decide_eq_true hf]
  dsimp only
  rw [B.visit_eq hd, h1, ho]
  rfl

theorem Cursor.In.step_past (h : c.In buf) (hf : F.Fits (c.rest buf))
    (ho : B.past (F.first (c.rest buf)) = true) :
    B.step buf c s =
      .on (c.next (F.size (c.rest buf))) (B.add s (F.first (c.rest buf))) := by
  obtain ⟨hd, h1, h2⟩ := h.fits hf
  rw [Body.step, h.ok, decide_eq_true hf]
  dsimp only
  rw [B.visit_eq hd, h1, h2, ho]
  rfl

/-- Where the padding is there, the step over a record leads to the record after it. -/
theorem Cursor.In.next (h : c.In buf) (ha : align n ≤ c.left) :
    c.next n = ⟨c.off + align n, c.left - align n⟩ ∧ (c.next n).In buf ∧
      (c.next n).rest buf = (c.rest buf).drop (align n) := by
  have hle := h.le
  have hlt := h.lt
  have he : c.next n = ⟨c.off + align n, c.left - align n⟩ := by
    rw [Cursor.next, align32_eq (by omega)]
    congr 1
    omega
  refine ⟨he, ⟨?_, ?_⟩, ?_⟩
  · rw [he]
    dsimp only
    omega
  · rw [he]
    dsimp only
    omega
  · rw [he]
    unfold Cursor.rest
    rw [List.drop_take, List.drop_drop]

/-- What the loop comes to where the records that it steps over are padded. -/
def Body.result (B : Body F σ ρ) (c : Cursor) (b : Bytes) (s : σ) : Walk σ ρ :=
  match (F.records b).dropWhile B.past with
  | [] => .fell ⟨c.off + span ((F.records b).takeWhile B.past),
      c.left - span ((F.records b).takeWhile B.past)⟩ ((F.records b).foldl B.add s)
  | r :: _ => .out (B.out (((F.records b).takeWhile B.past).foldl B.add s) r)

theorem Body.result_fell (h : ¬ F.Fits b) : B.result c b s = .fell c s := by
  rw [Body.result, Format.records_of_not_fits h]
  rfl

theorem Body.result_out (h : F.Fits b) (ho : B.past (F.first b) = false) :
    B.result c b s = .out (B.out s (F.first b)) := by
  rw [Body.result, Format.records_of_fits h, List.dropWhile_cons_of_neg (by simp [ho]),
    List.takeWhile_cons_of_neg (by simp [ho])]
  rfl

theorem Body.result_past (h : F.Fits b) (ho : B.past (F.first b) = true) :
    B.result c b s = B.result ⟨c.off + align (F.size b), c.left - align (F.size b)⟩ (F.next b)
      (B.add s (F.first b)) := by
  unfold Body.result
  rw [Format.records_of_fits h, List.dropWhile_cons_of_pos ho, List.takeWhile_cons_of_pos ho,
    span_cons, h.length_first, Nat.add_assoc, Nat.sub_sub]
  rfl

theorem Body.result_not_on : B.result c b s ≠ .on c' s' := by
  rw [Body.result]
  split
  · exact nofun
  · exact nofun

theorem Body.result_inside : B.result c b s ≠ .outside := by
  rw [Body.result]
  split
  · exact nofun
  · exact nofun

theorem Body.result_eq_out (h : B.result c b s = .out o) : ∃ r ∈ F.records b, B.past r = false ∧
    o = B.out (((F.records b).takeWhile B.past).foldl B.add s) r := by
  rw [Body.result] at h
  cases hd : (F.records b).dropWhile B.past with
  | nil =>
    rw [hd] at h
    cases h
  | cons r rest =>
    have hm : r ∈ (F.records b).dropWhile B.past := by
      rw [hd]
      exact List.mem_cons_self
    have ho := List.head?_dropWhile_not B.past (F.records b)
    rw [hd] at h ho
    cases h
    exact ⟨r, (List.dropWhile_suffix _).subset hm, by simpa using ho, rfl⟩

theorem Body.result_eq_fell (h : B.result c b s = .fell c' s') :
    s' = (F.records b).foldl B.add s := by
  rw [Body.result] at h
  cases hd : (F.records b).dropWhile B.past with
  | nil =>
    rw [hd] at h
    cases h
    rfl
  | cons r rest =>
    rw [hd] at h
    cases h

/-- The loop falls through only where its guard fails. -/
theorem Body.run_fell (h : B.run buf n c s = .fell c' s') : F.ok buf c' = some false := by
  induction n generalizing c s with
  | zero => cases h
  | succ n ih =>
    rw [Body.run] at h
    cases hs : B.step buf c s with
    | on c₁ s₁ =>
      rw [hs] at h
      exact ih h
    | fell c₁ s₁ =>
      rw [hs] at h
      cases h
      exact Body.step_fell hs
    | out o =>
      rw [hs] at h
      cases h
    | outside =>
      rw [hs] at h
      cases h

/-- As many passes as there are bytes are enough. -/
theorem Body.run_eq (h : c.In buf) (hp : F.Padded B.past (c.rest buf)) (hn : c.left < n) :
    B.run buf n c s = B.result c (c.rest buf) s := by
  induction n generalizing c s with
  | zero => exact absurd hn (Nat.not_lt_zero _)
  | succ n ih =>
    by_cases hf : F.Fits (c.rest buf)
    · cases ho : B.past (F.first (c.rest buf)) with
      | false => rw [Body.run_end (h.step_out hf ho) nofun, Body.result_out hf ho]
      | true =>
        obtain ⟨ha, hp'⟩ := (Format.padded_iff hf ho).1 hp
        rw [h.length_rest] at ha
        obtain ⟨he, hin, hr⟩ := h.next ha
        have hpos := F.header_pos.trans_le (hf.2.1.trans (le_align _))
        have hlt : (c.next (F.size (c.rest buf))).left < n := by
          rw [he]
          dsimp only
          omega
        rw [Body.run_on (h.step_past hf ho), ih hin (by rw [hr]; exact hp') hlt, hr, he,
          Body.result_past hf ho]
        rfl
    · rw [Body.run_end (h.step_fell hf) nofun, Body.result_fell hf]

/-- No pass leaves the padded records. -/
theorem Body.run_cases (h : c.In buf) (hp : F.Padded B.past (c.rest buf)) (n : Nat) :
    B.run buf n c s = B.result c (c.rest buf) s ∨ ∃ c' s', B.run buf n c s = .on c' s' ∧
      c'.In buf ∧ F.Padded B.past (c'.rest buf) := by
  induction n generalizing c s with
  | zero => exact .inr ⟨c, s, rfl, h, hp⟩
  | succ n ih =>
    by_cases hf : F.Fits (c.rest buf)
    · cases ho : B.past (F.first (c.rest buf)) with
      | false => exact .inl (by rw [Body.run_end (h.step_out hf ho) nofun, Body.result_out hf ho])
      | true =>
        obtain ⟨ha, hp'⟩ := (Format.padded_iff hf ho).1 hp
        rw [h.length_rest] at ha
        obtain ⟨he, hin, hr⟩ := h.next ha
        rw [Body.run_on (h.step_past hf ho), Body.result_past hf ho]
        have hih := ih (s := B.add s (F.first (c.rest buf))) hin (by rw [hr]; exact hp')
        rw [hr, he] at hih
        rw [he]
        exact hih
    · exact .inl (by rw [Body.run_end (h.step_fell hf) nofun, Body.result_fell hf])

theorem Body.Sound.of_padded (h : c.In buf) (hp : F.Padded B.past (c.rest buf)) :
    B.Sound buf c s where
  ends := by
    refine ⟨c.left + 1, fun c' s' => ?_⟩
    rw [Body.run_eq h hp (Nat.lt_succ_self _)]
    exact Body.result_not_on
  inside := by
    intro n hn
    rcases Body.run_cases (s := s) h hp n with hr | ⟨c', s', hr, -, -⟩
    · exact Body.result_inside (hr.symm.trans hn)
    · cases hr.symm.trans hn
  exact := by
    intro n c₁ s₁ c₂ s₂ hn hs
    rcases Body.run_cases (s := s) h hp n with hr | ⟨c', s', hr, hin, hp'⟩
    · exact absurd (hr.symm.trans hn) Body.result_not_on
    · cases hr.symm.trans hn
      by_cases hf : F.Fits (c₁.rest buf)
      · cases ho : B.past (F.first (c₁.rest buf)) with
        | false => cases (hin.step_out hf ho).symm.trans hs
        | true =>
          obtain ⟨ha, -⟩ := (Format.padded_iff hf ho).1 hp'
          have hlt := hin.lt
          rw [hin.length_rest] at ha
          rw [(hin.fits hf).2.2, align32_eq (by omega)]
          exact ha
      · cases (hin.step_fell hf).symm.trans hs

theorem Body.Sound.step (h : B.Sound buf c s) (hs : B.step buf c s = .on c' s') :
    B.Sound buf c' s' where
  ends := by
    obtain ⟨n, hn⟩ := h.ends
    cases n with
    | zero => exact absurd rfl (hn c s)
    | succ n => exact ⟨n, by rwa [Body.run_on hs] at hn⟩
  inside n hn := h.inside (n + 1) (by rw [Body.run_on hs, hn])
  exact n c₁ s₁ c₂ s₂ hn hst := h.exact (n + 1) c₁ s₁ c₂ s₂ (by rw [Body.run_on hs, hn]) hst

/-- A step that does not move is repeated for ever. -/
theorem Body.run_stuck (hs : ∀ s, ∃ s', B.step buf c s = .on c s') (n : Nat) (s : σ) :
    ∃ s', B.run buf n c s = .on c s' := by
  induction n generalizing s with
  | zero => exact ⟨s, rfl⟩
  | succ n ih =>
    obtain ⟨s', hs'⟩ := hs s
    rw [Body.run_on hs']
    exact ih s'

/-- The loop is sound exactly on the bytes in which the records that it steps over are padded. -/
theorem Body.sound_iff (h : c.In buf) : B.Sound buf c s ↔ F.Padded B.past (c.rest buf) := by
  refine ⟨fun hs => ?_, .of_padded h⟩
  induction hn : c.left using Nat.strong_induction_on generalizing c s with
  | _ n ih =>
    by_cases hf : F.Fits (c.rest buf)
    · cases ho : B.past (F.first (c.rest buf)) with
      | false => exact Format.padded_of_stop hf ho
      | true =>
        have hst := h.step_past (B := B) (s := s) hf ho
        by_cases ha : align (F.size (c.rest buf)) < 2 ^ 32
        · have hle := hs.exact 0 _ _ _ _ rfl hst
          rw [(h.fits hf).2.2, align32_eq ha] at hle
          obtain ⟨he, hin, hr⟩ := h.next hle
          have hpos := F.header_pos.trans_le (hf.2.1.trans (le_align _))
          have hp := ih _ (by rw [he]; dsimp only; omega) hin (hs.step hst) rfl
          rw [hr] at hp
          exact (Format.padded_iff hf ho).2 ⟨by rwa [h.length_rest], hp⟩
        · -- the 32-bit step is zero, so the loop visits the record again and again
          have hz := align32_eq_zero (F.size_lt _) ha
          have hc : c.next (F.size (c.rest buf)) = c := by
            have hlt := h.lt
            rw [Cursor.next, hz, Nat.add_zero, Nat.sub_zero, Nat.add_mod_right,
              Nat.mod_eq_of_lt hlt]
          obtain ⟨k, hk⟩ := hs.ends
          have hstuck (s : σ) : ∃ s', B.step buf c s = .on c s' :=
            ⟨_, by rw [h.step_past hf ho, hc]⟩
          obtain ⟨s', hs'⟩ := Body.run_stuck hstuck k s
          exact absurd hs' (hk c s')
    · exact Format.padded_of_not_fits hf

/-- The whole buffer, with the 32-bit length that the loop starts with. -/
def Cursor.start (buf : Bytes) : Cursor := ⟨0, buf.length % 2 ^ 32⟩

theorem Cursor.start_in (buf : Bytes) : (Cursor.start buf).In buf where
  le := by
    rw [Cursor.start, Nat.zero_add]
    exact Nat.mod_le _ _
  lt := Nat.mod_lt _ (by decide)

/-- The bytes that a loop walks which keeps the length of the buffer in 32 bits. -/
def walked (buf : Bytes) : Bytes := buf.take (buf.length % 2 ^ 32)

theorem Cursor.rest_start (buf : Bytes) : (Cursor.start buf).rest buf = walked buf := rfl

theorem walked_eq (h : buf.length < 2 ^ 32) : walked buf = buf := by
  rw [walked, Nat.mod_eq_of_lt h, List.take_length]

/-- Over records that have been laid out, the loop reads them in their order up to the first one
that it leaves at. -/
theorem Body.run_chain (rs : List F.Record) (hlt : (Format.chain rs).length < 2 ^ 32) :
    B.run (Format.chain rs) ((Format.chain rs).length + 1) (.start (Format.chain rs)) s =
      match (rs.map Format.Record.bytes).dropWhile B.past with
      | [] => .fell ⟨(Format.chain rs).length, 0⟩ ((rs.map Format.Record.bytes).foldl B.add s)
      | r :: _ =>
        .out (B.out (((rs.map Format.Record.bytes).takeWhile B.past).foldl B.add s) r) := by
  have hrec := Format.records_chain rs Format.not_fits_nil
  rw [List.append_nil] at hrec
  have hlen := Format.length_chain rs
  have hp : F.Padded B.past (Format.chain rs) := by
    have h : F.Padded B.past [] := Format.padded_of_not_fits Format.not_fits_nil
    rw [← List.append_nil (Format.chain rs)]
    exact (Format.padded_chain rs []).2 (.inr h)
  have hleft : (Cursor.start (Format.chain rs)).left = (Format.chain rs).length :=
    Nat.mod_eq_of_lt hlt
  rw [Body.run_eq (Cursor.start_in _) (by rw [Cursor.rest_start, walked_eq hlt]; exact hp)
    (by rw [hleft]; exact Nat.lt_succ_self _), Cursor.rest_start, walked_eq hlt, Body.result, hrec,
    hleft]
  cases hd : (rs.map Format.Record.bytes).dropWhile B.past with
  | nil =>
    have ht := List.takeWhile_append_dropWhile (p := B.past) (l := rs.map Format.Record.bytes)
    rw [hd, List.append_nil] at ht
    rw [ht, ← hlen]
    dsimp only [Cursor.start]
    rw [Nat.zero_add, Nat.sub_self]
  | cons r rest => rfl

/-- The records that the first `n` passes visit. -/
def Body.visited (B : Body F σ ρ) (buf : Bytes) : Nat → Cursor → σ → List Bytes
  | 0, _, _ => []
  | n + 1, c, s =>
    match B.step buf c s with
    | .on c' s' => F.first (buf.drop c.off) :: B.visited buf n c' s'
    | .out _ => [F.first (buf.drop c.off)]
    | _ => []

/-- A loop that steps over every record visits them all in their order. -/
theorem Body.visited_eq (h : c.In buf) (ho : ∀ r, B.past r = true)
    (hp : F.Padded B.past (c.rest buf)) (hn : c.left < n) :
    B.visited buf n c s = F.records (c.rest buf) := by
  induction n generalizing c s with
  | zero => exact absurd hn (Nat.not_lt_zero _)
  | succ n ih =>
    by_cases hf : F.Fits (c.rest buf)
    · obtain ⟨ha, hp'⟩ := (Format.padded_iff hf (ho _)).1 hp
      rw [h.length_rest] at ha
      obtain ⟨he, hin, hr⟩ := h.next ha
      have hpos := F.header_pos.trans_le (hf.2.1.trans (le_align _))
      have hlt : (c.next (F.size (c.rest buf))).left < n := by
        rw [he]
        dsimp only
        omega
      rw [Body.visited, h.step_past hf (ho _), Format.records_of_fits hf]
      dsimp only
      rw [ih hin (by rw [hr]; exact hp') hlt, hr, (h.fits hf).2.1]
      rfl
    · rw [Body.visited, h.step_fell hf, Format.records_of_not_fits hf]

end Records
