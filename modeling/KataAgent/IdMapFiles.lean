import KataAgent.MoveRoot
import KataAgent.GrpcSpec
import KataAgent.DecimalText
import KataAgent.RadixText
import Mathlib.Data.List.Pairwise

namespace KataAgent
open Fallible RadixText
set_option autoImplicit true

/-- A line of `uid_map` or `gid_map`, as the kernel keeps it. -/
structure Extent where
  first : Nat
  lowerFirst : Nat
  count : Nat
  deriving DecidableEq, Repr

/-- What the kernel's `isspace` takes. -/
def isSpace (c : Char) : Bool := c = ' ' ∨ (9 ≤ c.toNat ∧ c.toNat ≤ 13)

def skipSpaces (cs : Chars) : Chars := cs.dropWhile isSpace

/-- `simple_strtoul` with base 10, into 32 bits. -/
def readNumber (cs : Chars) : Nat × Chars :=
  let r := scan 10 0 cs
  (r.1 % 2 ^ 32, r.2)

/-- A line: three numbers, and nothing after them. -/
def readExtent (line : Chars) : Option Extent :=
  let first := readNumber (skipSpaces line)
  if first.2.head?.any isSpace then
    let lowerFirst := readNumber (skipSpaces first.2)
    if lowerFirst.2.head?.any isSpace then
      let count := readNumber (skipSpaces lowerFirst.2)
      if skipSpaces count.2 = [] then some ⟨first.1, lowerFirst.1, count.1⟩ else none
    else none
  else none

/-- The ids do not wrap, and the last one is left out. -/
structure Extent.Fits (e : Extent) : Prop where
  count : e.count ≠ 0
  first : e.first + e.count < 2 ^ 32
  lowerFirst : e.lowerFirst + e.count < 2 ^ 32

instance Extent.decidableFits {e : Extent} : Decidable e.Fits :=
  decidable_of_iff (e.count ≠ 0 ∧ e.first + e.count < 2 ^ 32 ∧ e.lowerFirst + e.count < 2 ^ 32)
    ⟨fun h => ⟨h.1, h.2.1, h.2.2⟩, fun h => ⟨h.count, h.first, h.lowerFirst⟩⟩

/-- No id of one is an id of the other, on either side. -/
def Extent.Apart (d e : Extent) : Prop :=
  (d.first + d.count ≤ e.first ∨ e.first + e.count ≤ d.first) ∧
    (d.lowerFirst + d.count ≤ e.lowerFirst ∨ e.lowerFirst + e.count ≤ d.lowerFirst)

instance Extent.decidableApart {d e : Extent} : Decidable (d.Apart e) :=
  inferInstanceAs (Decidable (_ ∧ _))

/-- The lines, without the nothing after the last end of a line. -/
def mapLines (text : Chars) : List Chars :=
  let ls := text.splitOn '\n'
  if ls.getLast? = some [] then ls.dropLast else ls

/-- The most lines that a map has. -/
def maxExtents : Nat := 340

/-- The bytes of a page. -/
def pageSize : Nat := 4096

/-- The kernel's answers on the map of a user namespace. -/
structure MapGuest where
  openFile : Option Errno
  /-- The writer may map to these ids. -/
  permitted : List Extent → Bool

/-- The loop of the kernel over the lines. -/
def readExtents : List Extent → List Chars → Option (List Extent)
  | done, [] => some done
  | done, line :: rest =>
    (readExtent line).bind fun e =>
      if e.Fits ∧ (∀ d ∈ done, d.Apart e) ∧ done.length < maxExtents then
        readExtents (done ++ [e]) rest
      else none

/-- A write to the file. The state is the map, which is set once. -/
def writeMap (g : MapGuest) (text : Chars) : Act (Option (List Extent)) ErrorKind Unit := fun map =>
  if pageSize ≤ text.length then (.err (.nix .EINVAL), map)
  else if map ≠ none then (.err (.nix EPERM), map)
  else
    match readExtents [] (mapLines text) with
    | none => (.err (.nix .EINVAL), map)
    | some [] => (.err (.nix .EINVAL), map)
    | some es => if g.permitted es then (.ok (), some es) else (.err (.nix EPERM), map)

/-- `"{} {} {}"`, without the end of the line. -/
def mappingLine (m : Grpc.LinuxIDMapping) : Chars :=
  decimalText m.containerID.toNat ++ ' ' :: (decimalText m.hostID.toNat ++ ' ' ::
    decimalText m.size.toNat)

/-- The text that `write_mappings` makes. -/
def mappingText (maps : List Grpc.LinuxIDMapping) : Chars :=
  maps.foldl (fun data m => if m.size = 0 then data else data ++ (mappingLine m ++ ['\n'])) []

def writeMappings (g : MapGuest) (maps : List Grpc.LinuxIDMapping) :
    Act (Option (List Extent)) ErrorKind Unit :=
  if mappingText maps = [] then pure ()
  else do
    Act.lift (syscall g.openFile)
    writeMap g (mappingText maps)

/-- The mappings that are written. -/
def live (maps : List Grpc.LinuxIDMapping) : List Grpc.LinuxIDMapping :=
  maps.filter fun m => m.size ≠ 0

def mappingExtent (m : Grpc.LinuxIDMapping) : Extent :=
  ⟨m.containerID.toNat, m.hostID.toNat, m.size.toNat⟩

/-- The id that the kernel makes of one of the namespace. -/
def hostOf (map : Option (List Extent)) (id : Nat) : Option Nat :=
  ((map.getD []).find? fun e => e.first ≤ id ∧ id < e.first + e.count).map fun e =>
    e.lowerFirst + (id - e.first)

variable {g : MapGuest} {maps : List Grpc.LinuxIDMapping} {m : Grpc.LinuxIDMapping}
  {es done : List Extent} {rest : Chars} {n : Nat}

theorem not_isSpace_of_isDigit {c : Char} (h : c.isDigit = true) : isSpace c = false := by
  rw [Char.isDigit, Bool.and_eq_true, decide_eq_true_eq, decide_eq_true_eq] at h
  have hlow : 48 ≤ c.toNat := h.1
  rw [isSpace, decide_eq_false_iff_not]
  rintro (rfl | hc)
  · exact absurd hlow (by decide)
  · omega

theorem skipSpaces_decimalText (n : Nat) (rest : Chars) :
    skipSpaces (decimalText n ++ rest) = decimalText n ++ rest := by
  obtain ⟨c, ds, hcons, hdigit⟩ := decimalText_cons n
  rw [hcons, List.cons_append, skipSpaces, List.dropWhile_cons_of_neg]
  rw [not_isSpace_of_isDigit hdigit]
  exact Bool.false_ne_true

theorem skipSpaces_space (n : Nat) (rest : Chars) :
    skipSpaces (' ' :: (decimalText n ++ rest)) = decimalText n ++ rest := by
  have h := skipSpaces_decimalText n rest
  rw [skipSpaces, List.dropWhile_cons_of_pos (by decide)]
  exact h

theorem readNumber_decimalText (hn : n < 2 ^ 32) (hrest : ∀ c ∈ rest.head?, digit 10 c = none) :
    readNumber (decimalText n ++ rest) = (n, rest) := by
  have h := scan_number writes_lower (by decide) (by decide) n rest hrest
  rw [List.map_id] at h
  rw [readNumber, decimalText, h, Nat.mod_eq_of_lt hn]

/-- The kernel reads the numbers of the line. -/
theorem readExtent_mappingLine (m : Grpc.LinuxIDMapping) :
    readExtent (mappingLine m) = some (mappingExtent m) := by
  have hspace (cs : Chars) : ∀ c ∈ (' ' :: cs).head?, digit 10 c = none := by
    rintro c ⟨⟩
    rfl
  have hlast : readNumber (decimalText m.size.toNat) = (m.size.toNat, []) := by
    have h : readNumber (decimalText m.size.toNat ++ []) = (m.size.toNat, []) :=
      readNumber_decimalText m.size.toNat_lt nofun
    rw [List.append_nil] at h
    exact h
  have hskip : skipSpaces (' ' :: decimalText m.size.toNat) = decimalText m.size.toNat := by
    have h := skipSpaces_space m.size.toNat []
    rw [List.append_nil] at h
    exact h
  rw [readExtent, mappingLine, skipSpaces_decimalText,
    readNumber_decimalText m.containerID.toNat_lt (hspace _)]
  simp only [List.head?_cons, skipSpaces_space, readNumber_decimalText m.hostID.toNat_lt (hspace _),
    hskip, hlast]
  rfl

theorem newline_not_mem (m : Grpc.LinuxIDMapping) : '\n' ∉ mappingLine m := by
  simp [mappingLine, notMem_decimalText]

theorem live_cons_of_size (hm : m.size = 0) : live (m :: maps) = live maps :=
  List.filter_cons_of_neg (by simp [hm])

theorem live_cons (hm : m.size ≠ 0) : live (m :: maps) = m :: live maps :=
  List.filter_cons_of_pos (by simp [hm])

theorem mappingText_eq (maps : List Grpc.LinuxIDMapping) :
    mappingText maps = (live maps).flatMap fun m => mappingLine m ++ ['\n'] := by
  have hfold (data : Chars) :
      maps.foldl (fun data m => if m.size = 0 then data else data ++ (mappingLine m ++ ['\n']))
        data = data ++ (live maps).flatMap fun m => mappingLine m ++ ['\n'] := by
    induction maps generalizing data with
    | nil => exact (List.append_nil data).symm
    | cons m maps ih =>
      rw [List.foldl_cons, ih]
      by_cases hm : m.size = 0
      · rw [if_pos hm, live_cons_of_size hm]
      · rw [if_neg hm, live_cons hm, List.flatMap_cons, List.append_assoc]
  exact hfold []

theorem mapLines_mappingText (maps : List Grpc.LinuxIDMapping) :
    mapLines (mappingText maps) = (live maps).map mappingLine := by
  have hsplit : (mappingText maps).splitOn '\n' = (live maps).map mappingLine ++ [[]] := by
    rw [mappingText_eq]
    induction live maps with
    | nil => rfl
    | cons m ms ih =>
      rw [List.flatMap_cons, List.append_assoc, List.singleton_append,
        List.splitOn_append_cons_self_of_not_mem (newline_not_mem m), ih]
      rfl
  rw [mapLines, hsplit]
  simp

theorem mappingText_eq_nil (maps : List Grpc.LinuxIDMapping) :
    mappingText maps = [] ↔ live maps = [] := by
  rw [mappingText_eq, List.flatMap_eq_nil_iff, List.eq_nil_iff_forall_not_mem]
  constructor
  · intro h m hm
    exact List.append_ne_nil_of_right_ne_nil _ (List.cons_ne_nil _ _) (h m hm)
  · intro h m hm
    exact absurd hm (h m)

/-- What the loop of the kernel asks of the lines that are left. -/
structure MapAccepted (done es : List Extent) : Prop where
  fits : ∀ e ∈ es, e.Fits
  old : ∀ d ∈ done, ∀ e ∈ es, d.Apart e
  new : es.Pairwise Extent.Apart
  few : es = [] ∨ done.length + es.length ≤ maxExtents

theorem mapAccepted_cons {e : Extent} :
    MapAccepted done (e :: es) ↔
      (e.Fits ∧ (∀ d ∈ done, d.Apart e) ∧ done.length < maxExtents) ∧
        MapAccepted (done ++ [e]) es := by
  constructor
  · rintro ⟨hfits, hold, hnew, hfew⟩
    rw [List.forall_mem_cons] at hfits
    rw [List.pairwise_cons] at hnew
    have hlen : done.length + (es.length + 1) ≤ maxExtents :=
      hfew.resolve_left (List.cons_ne_nil _ _)
    refine ⟨⟨hfits.1, fun d hd => hold d hd e List.mem_cons_self, by omega⟩, hfits.2, ?_, hnew.2,
      .inr ?_⟩
    · intro d hd e' he'
      rcases List.mem_append.mp hd with hd | hd
      · exact hold d hd e' (List.mem_cons_of_mem e he')
      · rw [List.mem_singleton.mp hd]
        exact hnew.1 e' he'
    · rw [List.length_append, List.length_singleton]
      omega
  · rintro ⟨⟨he, hapart, hlt⟩, hfits, hold, hnew, hfew⟩
    refine ⟨List.forall_mem_cons.mpr ⟨he, hfits⟩, ?_, List.pairwise_cons.mpr ⟨?_, hnew⟩, .inr ?_⟩
    · intro d hd e' he'
      rcases List.mem_cons.mp he' with rfl | he'
      · exact hapart d hd
      · exact hold d (List.mem_append_left _ hd) e' he'
    · exact fun e' he' => hold e (List.mem_append_right _ (List.mem_singleton_self e)) e' he'
    · rw [List.length_append, List.length_singleton] at hfew
      rw [List.length_cons]
      rcases hfew with rfl | hfew
      · exact hlt
      · omega

theorem readExtents_map (ms : List Grpc.LinuxIDMapping) (done es : List Extent) :
    readExtents done (ms.map mappingLine) = some es ↔
      MapAccepted done (ms.map mappingExtent) ∧ es = done ++ ms.map mappingExtent := by
  induction ms generalizing done with
  | nil =>
    rw [List.map_nil, List.map_nil, readExtents, Option.some.injEq, List.append_nil]
    constructor
    · rintro rfl
      exact ⟨⟨nofun, fun _ _ => nofun, .nil, .inl rfl⟩, rfl⟩
    · rintro ⟨-, rfl⟩
      rfl
  | cons m ms ih =>
    rw [List.map_cons, List.map_cons, readExtents, readExtent_mappingLine, Option.bind_some,
      mapAccepted_cons]
    by_cases h : (mappingExtent m).Fits ∧ (∀ d ∈ done, d.Apart (mappingExtent m)) ∧
        done.length < maxExtents
    · rw [if_pos h, ih, List.append_assoc, List.singleton_append, and_iff_right h]
    · rw [if_neg h]
      exact ⟨nofun, fun hes => absurd hes.1.1 h⟩

/-- What the kernel asks of the mappings, where there is one. -/
structure Mappable (g : MapGuest) (maps : List Grpc.LinuxIDMapping) : Prop where
  opened : g.openFile = none
  short : (mappingText maps).length < pageSize
  few : (live maps).length ≤ maxExtents
  fits : ∀ e ∈ (live maps).map mappingExtent, e.Fits
  apart : ((live maps).map mappingExtent).Pairwise Extent.Apart
  permitted : g.permitted ((live maps).map mappingExtent) = true

theorem readExtents_mappingText (maps : List Grpc.LinuxIDMapping) (es : List Extent) :
    readExtents [] (mapLines (mappingText maps)) = some es ↔
      ((live maps).length ≤ maxExtents ∧ (∀ e ∈ (live maps).map mappingExtent, e.Fits) ∧
        ((live maps).map mappingExtent).Pairwise Extent.Apart) ∧
      es = (live maps).map mappingExtent := by
  rw [mapLines_mappingText, readExtents_map, List.nil_append]
  refine and_congr_left fun _ => ⟨fun h => ⟨?_, h.fits, h.new⟩, fun h => ⟨h.2.1, nofun, h.2.2, ?_⟩⟩
  · rcases h.few with hnil | hfew
    · rw [List.map_eq_nil_iff.mp hnil]
      exact Nat.zero_le maxExtents
    · rwa [List.length_nil, Nat.zero_add, List.length_map] at hfew
  · right
    rw [List.length_nil, Nat.zero_add, List.length_map]
    exact h.1

/-- The map is set to the mappings, or the write is refused and it stays unset. -/
theorem writeMap_mappingText (hlive : live maps ≠ []) (hopen : g.openFile = none) :
    (Mappable g maps ∧
      writeMap g (mappingText maps) none = (.ok (), some ((live maps).map mappingExtent))) ∨
    (¬ Mappable g maps ∧ ∃ e, writeMap g (mappingText maps) none = (.err e, none)) := by
  rw [writeMap]
  by_cases hshort : pageSize ≤ (mappingText maps).length
  · rw [if_pos hshort]
    exact .inr ⟨fun h => absurd h.short (Nat.not_lt.mpr hshort), _, rfl⟩
  rw [if_neg hshort, if_neg (fun h => h rfl)]
  cases hread : readExtents [] (mapLines (mappingText maps)) with
  | none =>
    refine .inr ⟨fun h => ?_, _, rfl⟩
    have hsome := (readExtents_mappingText maps _).mpr ⟨⟨h.few, h.fits, h.apart⟩, rfl⟩
    rw [hread] at hsome
    cases hsome
  | some es =>
    obtain ⟨⟨hfew, hfits, hapart⟩, rfl⟩ := (readExtents_mappingText maps es).mp hread
    cases hmap : (live maps).map mappingExtent with
    | nil => exact absurd (List.map_eq_nil_iff.mp hmap) hlive
    | cons e es =>
      by_cases hp : g.permitted (e :: es) = true
      · exact .inl ⟨⟨hopen, Nat.not_le.mp hshort, hfew, hfits, hapart, hmap ▸ hp⟩, if_pos hp⟩
      · exact .inr ⟨fun h => hp (hmap ▸ h.permitted), _, if_neg hp⟩

theorem writeMappings_cases (g : MapGuest) (maps : List Grpc.LinuxIDMapping) :
    (live maps = [] ∧ writeMappings g maps none = (.ok (), none)) ∨
    (Mappable g maps ∧
      writeMappings g maps none = (.ok (), some ((live maps).map mappingExtent))) ∨
    (live maps ≠ [] ∧ ¬ Mappable g maps ∧ ∃ e, writeMappings g maps none = (.err e, none)) := by
  rw [writeMappings]
  by_cases hlive : live maps = []
  · rw [if_pos ((mappingText_eq_nil maps).mpr hlive)]
    exact .inl ⟨hlive, rfl⟩
  rw [if_neg (fun h => hlive ((mappingText_eq_nil maps).mp h))]
  right
  cases hopen : g.openFile with
  | some e => exact .inr ⟨hlive, fun h => absurd (hopen.symm.trans h.opened) nofun, _, rfl⟩
  | none =>
    rcases writeMap_mappingText hlive hopen with ⟨hm, hw⟩ | ⟨hm, hw⟩
    · exact .inl ⟨hm, hw⟩
    · exact .inr ⟨hlive, hm, hw⟩

theorem hostOf_some (hes : es.Pairwise Extent.Apart) (id host : Nat) :
    hostOf (some es) id = some host ↔
      ∃ e ∈ es, (e.first ≤ id ∧ id < e.first + e.count) ∧ e.lowerFirst + (id - e.first) = host := by
  rw [hostOf, Option.getD_some, Option.map_eq_some_iff]
  induction hes with
  | nil => simp
  | @cons e es hapart _ ih =>
    rw [List.find?_cons, List.exists_mem_cons_iff]
    by_cases he : e.first ≤ id ∧ id < e.first + e.count
    · rw [decide_eq_true he]
      constructor
      · rintro ⟨d, hd, hhost⟩
        cases hd
        exact .inl ⟨he, hhost⟩
      · rintro (⟨-, hhost⟩ | ⟨d, hd, hid, -⟩)
        · exact ⟨e, rfl, hhost⟩
        · have hout := (hapart d hd).1
          omega
    · rw [decide_eq_false he, ih]
      exact ⟨.inr, fun h => h.resolve_left fun h => he h.1⟩

/-- A mapping without a size takes no id, so that leaving it out changes nothing. -/
theorem exists_mem_live (id host : Nat) :
    (∃ e ∈ (live maps).map mappingExtent,
      (e.first ≤ id ∧ id < e.first + e.count) ∧ e.lowerFirst + (id - e.first) = host) ↔
    ∃ m ∈ maps, (m.containerID.toNat ≤ id ∧ id < m.containerID.toNat + m.size.toNat) ∧
      m.hostID.toNat + (id - m.containerID.toNat) = host := by
  constructor
  · rintro ⟨_, he, hid⟩
    obtain ⟨m, hm, rfl⟩ := List.mem_map.mp he
    exact ⟨m, List.mem_of_mem_filter hm, hid⟩
  · rintro ⟨m, hm, hid⟩
    have hsize : m.size ≠ 0 := by
      intro hzero
      rw [hzero, UInt32.toNat_zero] at hid
      omega
    have hlive : m ∈ live maps := List.mem_filter.mpr ⟨hm, decide_eq_true hsize⟩
    exact ⟨mappingExtent m, List.mem_map_of_mem hlive, hid⟩

theorem hostOf_injective (hes : es.Pairwise Extent.Apart) {id id' host : Nat}
    (h : hostOf (some es) id = some host) (h' : hostOf (some es) id' = some host) : id = id' := by
  obtain ⟨e, he, hid, hhost⟩ := (hostOf_some hes id host).mp h
  obtain ⟨d, hd, hid', hhost'⟩ := (hostOf_some hes id' host).mp h'
  by_cases heq : e = d
  · subst heq
    omega
  · have hsymm : Std.Symm Extent.Apart := ⟨fun d e hde => ⟨hde.1.symm, hde.2.symm⟩⟩
    have hout := (hes.forall he hd heq).2
    omega

/-- `write_mappings` on a map that is not set. -/
theorem writeMappings_maps (g : MapGuest) (maps : List Grpc.LinuxIDMapping) :
    ((writeMappings g maps none).1 = .ok () ↔ live maps = [] ∨ Mappable g maps) ∧
    (∀ id host, hostOf (writeMappings g maps none).2 id = some host ↔
      (writeMappings g maps none).1 = .ok () ∧
        ∃ m ∈ maps, (m.containerID.toNat ≤ id ∧ id < m.containerID.toNat + m.size.toNat) ∧
          m.hostID.toNat + (id - m.containerID.toNat) = host) ∧
    ∀ id id' host, hostOf (writeMappings g maps none).2 id = some host →
      hostOf (writeMappings g maps none).2 id' = some host → id = id' := by
  rcases writeMappings_cases g maps with ⟨hlive, hw⟩ | ⟨hm, hw⟩ | ⟨hlive, hm, e, hw⟩
  · rw [hw]
    refine ⟨iff_of_true rfl (.inl hlive), fun id host => iff_of_false nofun ?_, nofun⟩
    rintro ⟨-, hmem⟩
    obtain ⟨e, he, -⟩ := (exists_mem_live id host).mpr hmem
    rw [hlive] at he
    cases he
  · rw [hw]
    refine ⟨iff_of_true rfl (.inr hm), fun id host => ?_, fun id id' host h h' =>
      hostOf_injective hm.apart h h'⟩
    rw [hostOf_some hm.apart, exists_mem_live, and_iff_right rfl]
  · rw [hw]
    exact ⟨iff_of_false nofun (not_or.mpr ⟨hlive, hm⟩), fun id host =>
      iff_of_false nofun fun h => absurd h.1 nofun, nofun⟩

end KataAgent
