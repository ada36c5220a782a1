import KataAgent.GreedySearch
import KataAgent.DecimalText
import KataAgent.Message

namespace KataAgent
set_option autoImplicit true
open Fallible

/-- The characters with a meaning in a pattern, other than the dot. A bracket or a brace that closes
nothing has none. -/
def metacharacters : List Char := "\\+*?()|[\x7b^$".toList

def Plain (cs : List Char) : Prop := ∀ c ∈ cs, c ∉ metacharacters

/-- The patterns made of texts in which only the dot has a meaning, of `.+` and of `(.+)`. -/
inductive PatternItem where
  | text (cs : List Char)
  | run
  | group

def charClass (p c : Char) : Bool := if p = '.' then c ≠ '\n' else c = p

namespace PatternItem

def source : PatternItem → List Char
  | .text cs => cs
  | .run => ".+".toList
  | .group => "(.+)".toList

def element : PatternItem → Element Char
  | .text cs => .word (cs.map charClass)
  | .run => .run (charClass '.')
  | .group => .run (charClass '.')

end PatternItem

/-- What the groups of a pattern hold after a match. -/
def groups : List PatternItem → List (List Char) → List (Option String)
  | .group :: items, x :: xs => some (String.ofList x) :: groups items xs
  | _ :: items, _ :: xs => groups items xs
  | _, _ => []

/-- The captures of the first match in a text; the first of them is the match. -/
abbrev Matcher := String → Option (List (Option String))

/-- The crate `regex`: a pattern is refused, or it can be matched. -/
structure RegexCrate where
  new : String → Option Matcher

def patternMatcher (items : List PatternItem) : Matcher := fun line =>
  (leftmost (items.map PatternItem.element) line.toList).map fun xs =>
    some (String.ofList xs.flatten) :: groups items xs

/-- A text, a run, a text and a group. -/
def twoRuns (u v : List Char) : List PatternItem := [.text u, .run, .text v, .group]

/-- What is documented of such patterns: the leftmost match is found, and the runs are greedy. -/
def RegexCrate.Standard (rx : RegexCrate) : Prop :=
  ∀ u v, Plain u → Plain v →
    rx.new (String.ofList ((twoRuns u v).flatMap PatternItem.source)) =
      some (patternMatcher (twoRuns u v))

def mountPattern (mountPoint : String) : String :=
  "device .+ mounted on " ++ mountPoint ++ " with fstype (.+)"

/-- The loop over the lines. A group that took no part in a match panics when it is read. -/
def fsTypeOfLines (re : Matcher) (mountPoint : String) :
    List (Outcome ErrorKind String) → Outcome ErrorKind String
  | [] => .err (.errorCode ("failed to find FS type for mount point " ++ mountPoint))
  | line :: lines => do
    let line ← line
    match re line with
    | none => fsTypeOfLines re mountPoint lines
    | some capes =>
      if capes.length > 1 then Outcome.ofUnwrap capes[1]?.join
      else fsTypeOfLines re mountPoint lines

def getMountFsTypeFromFile (rx : RegexCrate)
    (reader : Outcome ErrorKind (List (Outcome ErrorKind String))) (mountPoint : String) :
    Outcome ErrorKind String :=
  if mountPoint = "" then .err (.errorCode ("Invalid mount point " ++ mountPoint))
  else do
    let lines ← reader
    let re ← Outcome.ofUnwrap (rx.new (mountPattern mountPoint))
    fsTypeOfLines re mountPoint lines

/-- A field of a line: the kernel escapes the blanks in it. -/
def IsWord (cs : List Char) : Prop := cs ≠ [] ∧ ∀ c ∈ cs, c ≠ ' ' ∧ c ≠ '\n'

/-- A line of `mountstats`. -/
structure StatLine where
  device : String
  mountPoint : String
  fstype : String
  extra : String
  device_isWord : IsWord device.toList
  mountPoint_isWord : IsWord mountPoint.toList
  fstype_isWord : IsWord fstype.toList
  extra_blank : ∀ c ∈ extra.toList.head?, c = ' '
  extra_line : '\n' ∉ extra.toList

namespace StatLine

def text (l : StatLine) : String :=
  "device " ++ l.device ++ " mounted on " ++ l.mountPoint ++ " with fstype " ++ l.fstype ++ l.extra

end StatLine

/-- The type on the first line for the mount point. -/
def fsTypeOf (mountPoint : String) (lines : List StatLine) : Option String :=
  (lines.find? fun l => l.mountPoint = mountPoint).map StatLine.fstype

/-- The type that is there is returned, and an error where there is none. -/
def Gives (r : Outcome ErrorKind String) : Option String → Prop
  | some t => r = .ok t
  | none => ∃ e, r = .err e

/-- The words around the fields of a line. -/
def deviceWord : List Char := "device ".toList

def mountedWord : List Char := " mounted on ".toList

def fstypeWord : List Char := " with fstype ".toList

/-- A text that a mount point stands for when it is read as a pattern. -/
def Like (mountPoint w : List Char) : Prop :=
  List.Forall₂ (fun p c => charClass p c = true) mountPoint w

/-- The text can be read as a line whose mount point is like the given one, with what comes after
`with fstype`. -/
def ReadsAs (cs mountPoint t : List Char) : Prop :=
  ∃ a w, cs = deviceWord ++ (a ++ (mountedWord ++ w ++ fstypeWord ++ t)) ∧ a ≠ [] ∧
    Like mountPoint w ∧ t ≠ []

/-- If a line can be read so, the first such line can be read with the type `expected`. -/
def FirstReadsAs (mountPoint : List Char) (expected : Option String) : List StatLine → Prop
  | [] => True
  | l :: lines =>
    (∃ t, expected = some t ∧ ReadsAs l.text.toList mountPoint t.toList) ∨
      (∀ t, ¬ReadsAs l.text.toList mountPoint t) ∧ FirstReadsAs mountPoint expected lines

/-- The first group of a match, where there is one. -/
def firstGroup (re : Matcher) (line : String) : Option (Option String) :=
  (re line).bind fun capes => if capes.length > 1 then some capes[1]?.join else none

/-- The first line that the pattern matches, if there is one, has the type in its first group. -/
def FirstTakes (re : Matcher) (expected : Option String) : List StatLine → Prop
  | [] => expected = none
  | l :: lines =>
    match firstGroup re l.text with
    | some t => t ≠ none ∧ t = expected
    | none => FirstTakes re expected lines

theorem charClass_self (h : p ≠ '\n') : charClass p p = true := by
  rw [charClass]
  split
  · exact decide_eq_true h
  · exact decide_eq_true rfl

theorem charClass_literal (h : p ≠ '.') : charClass p c = true ↔ c = p := by
  rw [charClass, if_neg h, decide_eq_true_iff]

theorem like_self (h : '\n' ∉ mp) : Like mp mp := by
  induction mp with
  | nil => exact .nil
  | cons p mp ih =>
    rw [List.mem_cons, not_or] at h
    exact .cons (charClass_self (Ne.symm h.1)) (ih h.2)

theorem like_literal (h : '.' ∉ u) : Like u x ↔ x = u := by
  induction u generalizing x with
  | nil => exact List.forall₂_nil_left_iff
  | cons p u ih =>
    rw [List.mem_cons, not_or] at h
    rw [Like, List.forall₂_cons_left_iff]
    constructor
    · rintro ⟨c, y, hc, hy, rfl⟩
      rw [(charClass_literal (Ne.symm h.1)).1 hc, (ih h.2).1 hy]
    · rintro rfl
      exact ⟨p, u, (charClass_literal (Ne.symm h.1)).2 rfl, (ih h.2).2 rfl, rfl⟩

theorem like_append : Like (u ++ v) x ↔ ∃ y z, x = y ++ z ∧ Like u y ∧ Like v z := by
  induction u generalizing x with
  | nil =>
    constructor
    · intro h
      exact ⟨[], x, rfl, .nil, h⟩
    · rintro ⟨y, z, rfl, hy, hz⟩
      rw [List.forall₂_nil_left_iff.1 hy]
      exact hz
  | cons p u ih =>
    rw [List.cons_append, Like, List.forall₂_cons_left_iff]
    constructor
    · rintro ⟨c, x, hc, hx, rfl⟩
      obtain ⟨y, z, rfl, hy, hz⟩ := ih.1 hx
      exact ⟨c :: y, z, rfl, .cons hc hy, hz⟩
    · rintro ⟨y, z, rfl, hy, hz⟩
      obtain ⟨c, y', hc, hy', rfl⟩ := List.forall₂_cons_left_iff.1 hy
      exact ⟨c, y' ++ z, hc, ih.2 ⟨y', z, rfl, hy', hz⟩, rfl⟩

/-- The pattern as its items. -/
def mountItems (mountPoint : List Char) : List PatternItem :=
  twoRuns deviceWord (mountedWord ++ mountPoint ++ fstypeWord)

def mountElements (mountPoint : List Char) : List (Element Char) :=
  (mountItems mountPoint).map PatternItem.element

theorem toList_pattern (u v w x y z : String) :
    (u ++ (v ++ w) ++ x ++ (y ++ z)).toList =
      u.toList ++ (v.toList ++ (w.toList ++ x.toList ++ y.toList ++ (z.toList ++ []))) := by
  simp only [String.toList_append, List.append_assoc, List.append_nil]

theorem mountPattern_eq (mountPoint : String) :
    mountPattern mountPoint =
      String.ofList ((mountItems mountPoint.toList).flatMap PatternItem.source) := by
  have hfront : "device .+ mounted on " = "device " ++ (".+" ++ " mounted on ") := rfl
  have hback : " with fstype (.+)" = " with fstype " ++ "(.+)" := rfl
  have hparts : mountPattern mountPoint =
      "device " ++ (".+" ++ " mounted on ") ++ mountPoint ++ (" with fstype " ++ "(.+)") :=
    congrArg₂ (fun front back => front ++ mountPoint ++ back) hfront hback
  apply String.toList_inj.1
  rw [hparts, toList_pattern]
  exact String.toList_ofList.symm

theorem plain_of_all (h : (cs.all fun c => c ∉ metacharacters) = true) : Plain cs :=
  fun c hc => of_decide_eq_true (List.all_eq_true.1 h c hc)

theorem plain_deviceWord : Plain deviceWord := plain_of_all (by decide)

theorem plain_middle (h : Plain mp) : Plain (mountedWord ++ mp ++ fstypeWord) := by
  have hmounted : Plain mountedWord := plain_of_all (by decide)
  have hwith : Plain fstypeWord := plain_of_all (by decide)
  intro c hc
  rcases List.mem_append.1 hc with hc | hc
  · rcases List.mem_append.1 hc with hc | hc
    · exact hmounted c hc
    · exact h c hc
  · exact hwith c hc

theorem word_admits : (PatternItem.text cs).element.Admits x ↔ Like cs x := by
  rw [PatternItem.element, Element.Admits, Like, List.forall₂_map_left_iff]

/-- The middle part of the pattern. -/
theorem like_middle : Like (mountedWord ++ mp ++ fstypeWord) x ↔
    ∃ w, x = mountedWord ++ w ++ fstypeWord ∧ Like mp w := by
  have hmounted : '.' ∉ mountedWord := by decide
  have hwith : '.' ∉ fstypeWord := by decide
  rw [like_append]
  constructor
  · rintro ⟨y, z, rfl, hy, hz⟩
    obtain ⟨u, w, rfl, hu, hw⟩ := like_append.1 hy
    rw [(like_literal hmounted).1 hu, (like_literal hwith).1 hz]
    exact ⟨w, rfl, hw⟩
  · rintro ⟨w, rfl, hw⟩
    refine ⟨_, _, rfl, like_append.2 ⟨_, _, rfl, ?_, hw⟩, ?_⟩
    · exact (like_literal hmounted).2 rfl
    · exact (like_literal hwith).2 rfl

theorem run_admits : (Element.run (charClass '.')).Admits x ↔ x ≠ [] ∧ '\n' ∉ x := by
  rw [Element.Admits, Piece.Admits]
  refine and_congr_right fun _ => ⟨fun h hn => ?_, fun h c hc => ?_⟩
  · exact absurd (h _ hn) (by decide)
  · rw [charClass, if_pos rfl, decide_eq_true_iff]
    rintro rfl
    exact h hc

theorem admits_iff : List.Forall₂ Element.Admits (mountElements mp) xs ↔
    ∃ a w t, xs = [deviceWord, a, mountedWord ++ w ++ fstypeWord, t] ∧ (a ≠ [] ∧ '\n' ∉ a) ∧
      Like mp w ∧ t ≠ [] ∧ '\n' ∉ t := by
  have hdevice : '.' ∉ deviceWord := by decide
  simp only [mountElements, mountItems, twoRuns, List.map_cons, List.map_nil,
    List.forall₂_cons_left_iff, List.forall₂_nil_left_iff, word_admits, like_middle,
    like_literal hdevice]
  constructor
  · rintro ⟨d, _, rfl, ⟨a, _, ha, ⟨m, _, ⟨w, rfl, hw⟩, ⟨t, _, ht, rfl, rfl⟩, rfl⟩, rfl⟩, rfl⟩
    exact ⟨a, w, t, rfl, run_admits.1 ha, hw, run_admits.1 ht⟩
  · rintro ⟨a, w, t, rfl, ha, hw, ht⟩
    exact ⟨_, _, rfl, ⟨a, _, run_admits.2 ha, ⟨_, _, ⟨w, rfl, hw⟩,
      ⟨t, _, run_admits.2 ht, rfl, rfl⟩, rfl⟩, rfl⟩, rfl⟩

theorem mem_ways_of_eq (hcs : '\n' ∉ cs)
    (heq : cs = deviceWord ++ (a ++ (mountedWord ++ w ++ fstypeWord ++ t))) (ha : a ≠ [])
    (hw : Like mp w) (ht : t ≠ []) :
    [deviceWord, a, mountedWord ++ w ++ fstypeWord, t] ∈ ways (mountElements mp) cs := by
  have hna : '\n' ∉ a := fun hmem => hcs (heq ▸ by simp [hmem])
  have hnt : '\n' ∉ t := fun hmem => hcs (heq ▸ by simp [hmem])
  refine mem_ways.2 ⟨[], ?_, admits_iff.2 ⟨a, w, t, rfl, ⟨ha, hna⟩, hw, ht, hnt⟩⟩
  rw [heq]
  simp

theorem ways_ne_nil_of_readsAs (hcs : '\n' ∉ cs) (h : ReadsAs cs mp t) :
    ways (mountElements mp) cs ≠ [] := by
  obtain ⟨a, w, heq, ha, hw, ht⟩ := h
  exact List.ne_nil_of_mem (mem_ways_of_eq hcs heq ha hw ht)

/-- A match anywhere in a line is one at its beginning, with a longer device. -/
theorem readsAs_of_mem_ways {pre rest : List Char} (hd : deviceWord <+: pre ++ rest)
    (h : xs ∈ ways (mountElements mp) rest) : ∃ t, ReadsAs (pre ++ rest) mp t := by
  obtain ⟨more, hrest, hadmits⟩ := mem_ways.1 h
  obtain ⟨a, w, t, rfl, ⟨ha, -⟩, hw, ht, -⟩ := admits_iff.1 hadmits
  have hrest : rest = deviceWord ++ a ++ (mountedWord ++ w ++ fstypeWord ++ (t ++ more)) := by
    rw [hrest]
    simp
  have hpre : pre ++ deviceWord ++ a <+: pre ++ rest := by
    refine ⟨mountedWord ++ w ++ fstypeWord ++ (t ++ more), ?_⟩
    rw [hrest]
    simp
  have hlen : deviceWord.length < (pre ++ deviceWord ++ a).length := by
    rw [List.length_append, List.length_append]
    have hpos := List.length_pos_iff.2 ha
    omega
  obtain ⟨b, hb⟩ := List.prefix_of_prefix_length_le hd hpre hlen.le
  refine ⟨t ++ more, b, w, ?_, ?_, hw, ?_⟩
  · rw [hrest, ← List.append_assoc deviceWord b, hb]
    simp
  · rintro rfl
    rw [← hb, List.append_nil] at hlen
    exact Nat.lt_irrefl _ hlen
  · exact fun hnil => ht (List.append_eq_nil_iff.1 hnil).1

theorem leftmost_eq_none_iff (hcs : '\n' ∉ cs) (hd : deviceWord <+: cs) :
    leftmost (mountElements mp) cs = none ↔ ∀ t, ¬ReadsAs cs mp t := by
  rw [leftmost_eq_none]
  constructor
  · intro h t ht
    exact ways_ne_nil_of_readsAs hcs ht (h [] cs rfl)
  · intro h pre rest heq
    apply List.eq_nil_iff_forall_not_mem.2
    intro xs hxs
    obtain ⟨t, ht⟩ := readsAs_of_mem_ways (heq ▸ hd) hxs
    exact h t (heq ▸ ht)

theorem prefers_cons (h : Prefers (x :: xs) (y :: ys)) :
    y.length < x.length ∨ x = y ∧ Prefers xs ys := by
  cases h with
  | same => exact .inr ⟨rfl, .same xs⟩
  | longer hlen => exact .inl hlen
  | cons htail => exact .inr ⟨rfl, htail⟩

theorem prefers_cons_self (h : Prefers (x :: xs) (x :: ys)) : Prefers xs ys :=
  (prefers_cons h).elim (fun hlt => absurd hlt (Nat.lt_irrefl _)) And.right

/-- The group of the leftmost match is the shortest text that a line can be read with. -/
theorem leftmost_readsAs (hcs : '\n' ∉ cs) (hd : deviceWord <+: cs)
    (h : leftmost (mountElements mp) cs = some xs) :
    ∃ a m t, xs = [deviceWord, a, m, t] ∧ ReadsAs cs mp t ∧
      ∀ t', ReadsAs cs mp t' → t.length ≤ t'.length := by
  have hne : ways (mountElements mp) cs ≠ [] := by
    intro hnil
    have hnone : ∀ t, ¬ReadsAs cs mp t := fun t ht => ways_ne_nil_of_readsAs hcs ht hnil
    rw [(leftmost_eq_none_iff hcs hd).2 hnone] at h
    cases h
  rw [leftmost_of_ne_nil hne] at h
  obtain ⟨more, hmore, hadmits⟩ := mem_ways.1 (List.mem_of_mem_head? h)
  obtain ⟨a, w, t, rfl, ⟨ha, hna⟩, hw, ht, hnt⟩ := admits_iff.1 hadmits
  have heq : cs = deviceWord ++ (a ++ (mountedWord ++ w ++ fstypeWord ++ (t ++ more))) := by
    rw [hmore]
    simp
  have hway := mem_ways_of_eq hcs heq ha hw (List.append_ne_nil_of_left_ne_nil ht more)
  -- the last run takes all that is left
  have hrun := prefers_cons_self (prefers_cons_self (prefers_cons_self (head_prefers h hway)))
  obtain rfl : more = [] := by
    rcases prefers_cons hrun with hlt | ⟨heq, -⟩
    · rw [List.length_append] at hlt
      exact absurd hlt (by omega)
    · exact List.self_eq_append_right.1 heq
  rw [List.append_nil] at heq
  refine ⟨a, _, t, rfl, ⟨a, w, heq, ha, hw, ht⟩, ?_⟩
  -- and the first run as much as it can, so that the least is left
  rintro t' ⟨a', w', heq', ha', hw', ht'⟩
  have hfirst : a'.length ≤ a.length := by
    have hprefers := head_prefers h (mem_ways_of_eq hcs heq' ha' hw' ht')
    rcases prefers_cons (prefers_cons_self hprefers) with hlt | ⟨rfl, -⟩
    · exact hlt.le
    · exact Nat.le_refl _
  have hlen := congrArg List.length (heq.symm.trans heq')
  simp only [List.length_append] at hlen
  have hw := List.Forall₂.length_eq hw
  have hw' := List.Forall₂.length_eq hw'
  omega

theorem readsAs_blank (h : ReadsAs cs mp t) : ∃ u, cs = u ++ [' '] ++ t := by
  obtain ⟨a, w, rfl, -⟩ := h
  have hblank : fstypeWord = " with fstype".toList ++ [' '] := rfl
  exact ⟨deviceWord ++ a ++ mountedWord ++ w ++ " with fstype".toList, by simp [hblank]⟩

/-- Only one text without a blank ends a line that can be read with it. -/
theorem readsAs_word (h : ReadsAs cs mp t) (h' : ReadsAs cs mp t') (hword : ' ' ∉ t')
    (hlen : t.length ≤ t'.length) : t = t' := by
  obtain ⟨u, hu⟩ := readsAs_blank h
  obtain ⟨v, hv⟩ := readsAs_blank h'
  obtain ⟨x, hx⟩ := List.suffix_of_suffix_length_le ⟨u ++ [' '], hu.symm⟩ ⟨v ++ [' '], hv.symm⟩ hlen
  rcases List.eq_nil_or_concat' x with rfl | ⟨y, c, rfl⟩
  · exact hx
  · rw [hv, ← hx, ← List.append_assoc, ← List.append_assoc] at hu
    have hc : c = ' ' := by
      have hinit := List.append_cancel_right hu
      exact List.singleton_inj.1 (List.append_inj_right' hinit rfl)
    subst hc
    rw [← hx] at hword
    exact absurd (by simp) hword

theorem toList_line (u d v m w t e : String) :
    (u ++ d ++ v ++ m ++ w ++ t ++ e).toList = u.toList ++ (d.toList ++
      (v.toList ++ m.toList ++ w.toList ++ (t.toList ++ e.toList))) := by
  simp only [String.toList_append, List.append_assoc]

namespace StatLine

theorem toList_text (l : StatLine) : l.text.toList =
    deviceWord ++ (l.device.toList ++ (mountedWord ++ l.mountPoint.toList ++ fstypeWord ++
      (l.fstype.toList ++ l.extra.toList))) :=
  toList_line _ _ _ _ _ _ _

theorem newline_notMem_text (l : StatLine) : '\n' ∉ l.text.toList := by
  have hwords : '\n' ∉ deviceWord ∧ '\n' ∉ mountedWord ∧ '\n' ∉ fstypeWord := by decide
  have hfield {cs : List Char} (h : IsWord cs) : '\n' ∉ cs := fun hmem => (h.2 _ hmem).2 rfl
  rw [toList_text]
  simp only [List.mem_append, not_or]
  exact ⟨hwords.1, hfield l.device_isWord, ⟨⟨hwords.2.1, hfield l.mountPoint_isWord⟩, hwords.2.2⟩,
    hfield l.fstype_isWord, l.extra_line⟩

theorem deviceWord_prefix (l : StatLine) : deviceWord <+: l.text.toList :=
  ⟨_, l.toList_text.symm⟩

/-- A line can be read as what it is. -/
theorem readsAs_self (l : StatLine) :
    ReadsAs l.text.toList l.mountPoint.toList (l.fstype.toList ++ l.extra.toList) := by
  refine ⟨_, _, l.toList_text, l.device_isWord.1, like_self fun hmem => ?_,
    List.append_ne_nil_of_left_ne_nil l.fstype_isWord.1 _⟩
  exact (l.mountPoint_isWord.2 _ hmem).2 rfl

end StatLine

theorem matcher_eq_none {l : StatLine} : patternMatcher (mountItems mp) l.text = none ↔
    ∀ t, ¬ReadsAs l.text.toList mp t := by
  rw [patternMatcher, Option.map_eq_none_iff]
  exact leftmost_eq_none_iff l.newline_notMem_text l.deviceWord_prefix

theorem matcher_eq_some {l : StatLine} {capes : List (Option String)}
    (h : patternMatcher (mountItems mp) l.text = some capes) :
    ∃ t, ReadsAs l.text.toList mp t ∧ (∀ t', ReadsAs l.text.toList mp t' → t.length ≤ t'.length) ∧
      ∃ whole, capes = [whole, some (String.ofList t)] := by
  obtain ⟨xs, hxs, rfl⟩ := Option.map_eq_some_iff.1 h
  obtain ⟨a, m, t, rfl, ht, hleast⟩ :=
    leftmost_readsAs l.newline_notMem_text l.deviceWord_prefix hxs
  exact ⟨t, ht, hleast, _, rfl⟩

theorem fsTypeOf_cons {l : StatLine} {lines : List StatLine} (h : l.mountPoint ≠ mp) :
    fsTypeOf mp (l :: lines) = fsTypeOf mp lines := by
  rw [fsTypeOf, List.find?_cons_of_neg (by simpa using h), fsTypeOf]

theorem fsTypeOf_isWord {lines : List StatLine} (h : fsTypeOf mp lines = some t) :
    IsWord t.toList := by
  obtain ⟨l, -, rfl⟩ := Option.map_eq_some_iff.1 h
  exact l.fstype_isWord

theorem gives_ok_iff : Gives (.ok t) o ↔ o = some t := by
  cases o with
  | none => exact iff_of_false nofun nofun
  | some u =>
    rw [Gives, Option.some.injEq]
    exact ⟨fun h => (Outcome.ok.inj h).symm, fun h => congrArg _ h.symm⟩

theorem fsTypeOfLines_gives (mp : String) (lines : List StatLine) :
    Gives (fsTypeOfLines (patternMatcher (mountItems mp.toList)) mp
        (lines.map fun l => .ok l.text)) (fsTypeOf mp lines) ↔
      FirstReadsAs mp.toList (fsTypeOf mp lines) lines := by
  induction lines with
  | nil =>
    rw [List.map_nil, fsTypeOfLines, fsTypeOf, List.find?_nil, Option.map_none, Gives,
      FirstReadsAs]
    exact iff_of_true ⟨_, rfl⟩ trivial
  | cons l lines ih =>
    rw [List.map_cons, fsTypeOfLines, Outcome.ok_bind, FirstReadsAs]
    cases hre : patternMatcher (mountItems mp.toList) l.text with
    | none =>
      have hnone := matcher_eq_none.1 hre
      have hmp : l.mountPoint ≠ mp := by
        rintro rfl
        exact hnone _ l.readsAs_self
      rw [fsTypeOf_cons hmp]
      dsimp only
      rw [ih]
      constructor
      · intro h
        exact .inr ⟨hnone, h⟩
      · rintro (⟨t, -, ht⟩ | ⟨-, h⟩)
        · exact absurd ht (hnone _)
        · exact h
    | some capes =>
      obtain ⟨t, ht, hleast, whole, rfl⟩ := matcher_eq_some hre
      have hone : [whole, some (String.ofList t)].length > 1 := Nat.lt_succ_self 1
      dsimp only
      rw [if_pos hone]
      change Gives (.ok (String.ofList t)) _ ↔ _
      rw [gives_ok_iff]
      constructor
      · intro h
        have hself : (String.ofList t).toList = t := String.toList_ofList
        refine .inl ⟨_, h, ?_⟩
        rw [hself]
        exact ht
      · rintro (⟨t', hexp, ht'⟩ | ⟨hnone, -⟩)
        · have hword : ' ' ∉ t'.toList := fun hmem => ((fsTypeOf_isWord hexp).2 _ hmem).1 rfl
          rw [readsAs_word ht ht' hword (hleast _ ht'), String.ofList_toList]
          exact hexp
        · exact absurd ht (hnone t)

/-- Whatever the pattern is. -/
theorem fsTypeOfLines_takes (re : Matcher) (mp : String) (expected : Option String)
    (lines : List StatLine) :
    Gives (fsTypeOfLines re mp (lines.map fun l => .ok l.text)) expected ↔
      FirstTakes re expected lines := by
  induction lines with
  | nil =>
    rw [List.map_nil, fsTypeOfLines, FirstTakes]
    cases expected with
    | none => exact iff_of_true ⟨_, rfl⟩ rfl
    | some t => exact iff_of_false nofun nofun
  | cons l lines ih =>
    rw [List.map_cons, fsTypeOfLines, Outcome.ok_bind, FirstTakes, firstGroup]
    cases re l.text with
    | none => exact ih
    | some capes =>
      dsimp only [Option.bind_some]
      by_cases hlen : capes.length > 1
      · rw [if_pos hlen, if_pos hlen]
        cases capes[1]?.join with
        | none =>
          have hpanic : ¬ Gives (.panic : Outcome ErrorKind String) expected := by
            cases expected with
            | none => exact nofun
            | some t => exact nofun
          exact iff_of_false hpanic fun h => h.1 rfl
        | some t =>
          rw [Outcome.ofUnwrap_some, gives_ok_iff]
          exact ⟨fun h => ⟨nofun, h.symm⟩, fun h => h.2.symm⟩
      · rw [if_neg hlen, if_neg hlen]
        exact ih

/-- The type is found exactly when the first line that the pattern matches has it in its first group.
For a mount point in which at most dots have a meaning, that is when this line ends as a line with
that type does. A mount point that is no pattern panics. -/
theorem getMountFsTypeFromFile_gives {rx : RegexCrate} (h : rx.Standard) {mp : String}
    (hmp : mp ≠ "") (lines : List StatLine) :
    (∀ re, rx.new (mountPattern mp) = some re →
      (Gives (getMountFsTypeFromFile rx (.ok (lines.map fun l => .ok l.text)) mp)
        (fsTypeOf mp lines) ↔ FirstTakes re (fsTypeOf mp lines) lines)) ∧
    (Plain mp.toList →
      (Gives (getMountFsTypeFromFile rx (.ok (lines.map fun l => .ok l.text)) mp)
        (fsTypeOf mp lines) ↔ FirstReadsAs mp.toList (fsTypeOf mp lines) lines)) ∧
    (rx.new (mountPattern mp) = none →
      ¬ Gives (getMountFsTypeFromFile rx (.ok (lines.map fun l => .ok l.text)) mp)
        (fsTypeOf mp lines)) := by
  rw [getMountFsTypeFromFile, if_neg hmp, Outcome.ok_bind]
  refine ⟨?_, ?_, ?_⟩
  · intro re hnew
    rw [hnew, Outcome.ofUnwrap_some, Outcome.ok_bind]
    exact fsTypeOfLines_takes re mp (fsTypeOf mp lines) lines
  · intro hplain
    have hnew := h _ _ plain_deviceWord (plain_middle hplain)
    rw [← mountItems, ← mountPattern_eq] at hnew
    rw [hnew, Outcome.ofUnwrap_some, Outcome.ok_bind]
    exact fsTypeOfLines_gives mp lines
  · intro hnew
    rw [hnew, Outcome.ofUnwrap_none, Outcome.panic_bind]
    cases fsTypeOf mp lines with
    | none => exact nofun
    | some t => exact nofun

/-- An engine for patterns of this shape only. -/
def RegexCrate.twoRuns : RegexCrate where
  new text :=
    let u := (text.toList.takeWhile (· ≠ '+')).dropLast
    let v := ((text.toList.dropWhile (· ≠ '+')).drop 1).takeWhile (· ≠ '(')
    let items := KataAgent.twoRuns u v
    if text = String.ofList (items.flatMap PatternItem.source) then some (patternMatcher items)
    else none

/-- A text up to a character that is not in it. -/
theorem takeWhile_stop {u : List Char} {c : Char} (h : c ∉ u) (v : List Char) :
    (u ++ c :: v).takeWhile (· ≠ c) = u ∧ (u ++ c :: v).dropWhile (· ≠ c) = c :: v := by
  have hall : ∀ d ∈ u, decide (d ≠ c) = true := by
    intro d hd
    apply decide_eq_true
    rintro rfl
    exact h hd
  rw [List.takeWhile_append_of_pos hall, List.dropWhile_append_of_pos hall]
  simp

theorem twoRuns_standard : RegexCrate.twoRuns.Standard := by
  intro u v hu hv
  have hplus : '+' ∉ u ++ ['.'] := by
    intro hmem
    rcases List.mem_append.1 hmem with hmem | hmem
    · exact hu _ hmem (by decide)
    · exact absurd hmem (by decide)
  have hparen : '(' ∉ v := fun hmem => hv _ hmem (by decide)
  have htext : (twoRuns u v).flatMap PatternItem.source =
      (u ++ ['.']) ++ '+' :: (v ++ '(' :: ".+)".toList) := by
    simp [twoRuns, PatternItem.source]
  have hcs : (String.ofList ((twoRuns u v).flatMap PatternItem.source)).toList =
      (u ++ ['.']) ++ '+' :: (v ++ '(' :: ".+)".toList) := String.toList_ofList.trans htext
  simp only [RegexCrate.twoRuns]
  rw [hcs, (takeWhile_stop hplus _).1, (takeWhile_stop hplus _).2, List.drop_one, List.tail_cons,
    (takeWhile_stop hparen _).1, List.dropLast_concat, if_pos rfl]

theorem blank_of_all {cs : List Char} (h : cs.head?.all (· = ' ') = true) :
    ∀ c ∈ cs.head?, c = ' ' :=
  fun c hc => of_decide_eq_true ((Option.all_eq_true _ _).1 h c hc)

def rootStat : StatLine where
  device := "/dev/mapper/root"
  mountPoint := "/"
  fstype := "ext4"
  extra := ""
  device_isWord := ⟨by decide, forall_mem_of_all (by decide)⟩
  mountPoint_isWord := ⟨by decide, forall_mem_of_all (by decide)⟩
  fstype_isWord := ⟨by decide, forall_mem_of_all (by decide)⟩
  extra_blank := blank_of_all (by decide)
  extra_line := by decide

def nfsStat : StatLine where
  device := "10.0.0.1:/export"
  mountPoint := "/mnt"
  fstype := "nfs"
  extra := " statvers=1.1"
  device_isWord := ⟨by decide, forall_mem_of_all (by decide)⟩
  mountPoint_isWord := ⟨by decide, forall_mem_of_all (by decide)⟩
  fstype_isWord := ⟨by decide, forall_mem_of_all (by decide)⟩
  extra_blank := blank_of_all (by decide)
  extra_line := by decide

theorem getMountFsTypeFromFile_root :
    Gives (getMountFsTypeFromFile .twoRuns (.ok [.ok rootStat.text]) "/") (some "ext4") := by
  have hne : "/" ≠ "" := by decide
  have hiff := (getMountFsTypeFromFile_gives twoRuns_standard hne [rootStat]).2.1
    (plain_of_all (by decide))
  exact hiff.2 (.inl ⟨_, rfl, rootStat.readsAs_self⟩)

theorem getMountFsTypeFromFile_nfs : ¬ ∀ (rx : RegexCrate), rx.Standard →
    ∀ (mp : String) (lines : List StatLine), mp ≠ "" →
      Gives (getMountFsTypeFromFile rx (.ok (lines.map fun l => .ok l.text)) mp)
        (fsTypeOf mp lines) := by
  intro h
  have hgives := h .twoRuns twoRuns_standard "/mnt" [nfsStat] (by decide)
  have hrun : getMountFsTypeFromFile .twoRuns (.ok ([nfsStat].map fun l => .ok l.text)) "/mnt" =
      .ok "nfs statvers=1.1" := by decide +kernel
  rw [hrun] at hgives
  have htype : fsTypeOf "/mnt" [nfsStat] = some "nfs" := by decide
  rw [htype] at hgives
  exact absurd hgives (by rw [Gives]; decide)

end KataAgent
