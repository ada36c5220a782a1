import KataAgent.DecimalText

namespace KataAgent
open Fallible
set_option autoImplicit true

/-- The name of an operation. -/
structure OpName where
  chars : Chars
  no_space : ∀ c ∈ chars, isWhitespace c = false

/-- The lines that the kernel writes to the files of the blkio controller. The operation of a device
line may be the total of the device. -/
inductive BlkioLine where
  | device (major minor : UInt64) (op : OpName) (value : UInt64)
  | bare (major minor value : UInt64)
  | total (value : UInt64)

def deviceText (major minor : UInt64) : Chars :=
  decimalText major.toNat ++ ':' :: decimalText minor.toNat

def BlkioLine.text : BlkioLine → Chars
  | .device major minor op value =>
    deviceText major minor ++ ' ' :: (op.chars ++ ' ' :: decimalText value.toNat)
  | .bare major minor value => deviceText major minor ++ ' ' :: decimalText value.toNat
  | .total value => "Total".toList ++ ' ' :: decimalText value.toNat

def BlkioLine.entry : BlkioLine → Option BlkioStatsEntry
  | .device major minor op value => some ⟨major, minor, String.ofList op.chars, value⟩
  | .bare major minor value => some ⟨major, minor, "", value⟩
  | .total _ => none

def BlkioLine.isBare : BlkioLine → Bool
  | .bare _ _ _ => true
  | _ => false

def blkioText (ls : List BlkioLine) : String := fileText (ls.map BlkioLine.text)

/-- One entry for each line of a device, in the order of the file. -/
def deviceEntries (ls : List BlkioLine) : List BlkioStatsEntry := ls.filterMap BlkioLine.entry

def throttleFiles : List String := ["blkio.throttle.io_service_bytes", "blkio.throttle.io_serviced"]

def cfqFiles : List String :=
  ["blkio.sectors_recursive", "blkio.io_service_bytes_recursive", "blkio.io_serviced_recursive",
    "blkio.io_queued_recursive", "blkio.io_service_time_recursive",
    "blkio.io_wait_time_recursive", "blkio.io_merged_recursive", "blkio.time_recursive"]

/-- The statistics that the files hold, from those of the throttle layer where the scheduler has
none. -/
def blkioStatsOf (files : String → List BlkioLine) : BlkioStats :=
  let entries file := deviceEntries (files file)
  if entries "blkio.io_serviced_recursive" = [] then
    ⟨entries "blkio.throttle.io_service_bytes", entries "blkio.throttle.io_serviced",
      [], [], [], [], [], []⟩
  else
    ⟨entries "blkio.io_service_bytes_recursive", entries "blkio.io_serviced_recursive",
      entries "blkio.io_queued_recursive", entries "blkio.io_service_time_recursive",
      entries "blkio.io_wait_time_recursive", entries "blkio.io_merged_recursive",
      entries "blkio.time_recursive", entries "blkio.sectors_recursive"⟩

/-- The files behind these statistics. -/
def blkioFilesRead (files : String → List BlkioLine) : List String :=
  "blkio.io_serviced_recursive" ::
    if deviceEntries (files "blkio.io_serviced_recursive") = [] then throttleFiles else cfqFiles

/-- No line is without an operation. -/
def NoBare (ls : List BlkioLine) : Prop := ∀ l ∈ ls, l.isBare = false

instance (ls : List BlkioLine) : Decidable (NoBare ls) :=
  inferInstanceAs (Decidable (∀ l ∈ ls, l.isBare = false))

section
variable {g : CgroupGuest} {dir file : String} {files : String → List BlkioLine}
  {ls : List BlkioLine}

theorem notMem_deviceText {c : Char} (major minor : UInt64) (hc : c.isDigit = false)
    (hcolon : c ≠ ':') : c ∉ deviceText major minor := by
  intro h
  rcases List.mem_append.1 h with h | h
  · exact notMem_decimalText hc h
  · rcases List.mem_cons.1 h with h | h
    · exact hcolon h
    · exact notMem_decimalText hc h

theorem splitOn_deviceText (major minor : UInt64) :
    (deviceText major minor).splitOn ':' = [decimalText major.toNat, decimalText minor.toNat] := by
  have hcolon (n : Nat) : ':' ∉ decimalText n := notMem_decimalText (by decide)
  rw [deviceText, List.splitOn_append_cons_self_of_not_mem (hcolon _),
    List.splitOn_eq_singleton (hcolon _)]

theorem OpName.notMem (op : OpName) {c : Char} (hc : isWhitespace c = true) : c ∉ op.chars := by
  intro h
  rw [op.no_space c h] at hc
  cases hc

theorem BlkioLine.notMem_text (l : BlkioLine) {c : Char} (hc : isWhitespace c = true)
    (hspace : c ≠ ' ') : c ∉ l.text := by
  have hdigit : c.isDigit = false := by
    by_contra hd
    rw [not_whitespace_of_isDigit (Bool.of_not_eq_false hd)] at hc
    cases hc
  have hnum (n : Nat) : c ∉ decimalText n := notMem_decimalText hdigit
  have hdev (major minor : UInt64) : c ∉ deviceText major minor := by
    apply notMem_deviceText major minor hdigit
    rintro rfl
    exact absurd hc (by decide)
  cases l with
  | device major minor op value =>
    simp only [BlkioLine.text, List.mem_append, List.mem_cons, hspace, hnum, hdev, op.notMem hc,
      or_self, not_false_eq_true]
  | bare major minor value =>
    simp only [BlkioLine.text, List.mem_append, List.mem_cons, hspace, hnum, hdev, or_self,
      not_false_eq_true]
  | total value =>
    have htotal : c ∉ "Total".toList := by
      have hall : ∀ c ∈ "Total".toList, isWhitespace c = false := forall_mem_of_all (by decide)
      intro h
      rw [hall c h] at hc
      cases hc
    simp only [BlkioLine.text, List.mem_append, List.mem_cons, hspace, hnum, htotal, or_self,
      not_false_eq_true]

theorem lines_blkioText (ls : List BlkioLine) : lines (blkioText ls) = ls.map BlkioLine.text := by
  have hline : ∀ l ∈ ls.map BlkioLine.text, '\n' ∉ l := by
    intro l hl
    obtain ⟨l, -, rfl⟩ := List.mem_map.1 hl
    exact l.notMem_text (by decide) (by decide)
  rw [blkioText, lines_fileText hline, List.map_map]
  apply List.map_congr_left
  intro l _
  exact stripReturn_of_notMem (l.notMem_text (by decide) (by decide))

theorem splitOn_device (major minor : UInt64) (op : OpName) (value : UInt64) :
    (BlkioLine.device major minor op value).text.splitOn ' ' =
      [deviceText major minor, op.chars, decimalText value.toNat] := by
  rw [BlkioLine.text, List.splitOn_append_cons_self_of_not_mem
      (notMem_deviceText major minor (by decide) (by decide)),
    List.splitOn_append_cons_self_of_not_mem (op.notMem (by decide)),
    List.splitOn_eq_singleton (notMem_decimalText (by decide))]

theorem splitOn_bare (major minor value : UInt64) :
    (BlkioLine.bare major minor value).text.splitOn ' ' =
      [deviceText major minor, decimalText value.toNat] := by
  rw [BlkioLine.text, List.splitOn_append_cons_self_of_not_mem
      (notMem_deviceText major minor (by decide) (by decide)),
    List.splitOn_eq_singleton (notMem_decimalText (by decide))]

theorem splitOn_total (value : UInt64) :
    (BlkioLine.total value).text.splitOn ' ' = ["Total".toList, decimalText value.toNat] := by
  rw [BlkioLine.text, List.splitOn_append_cons_self_of_not_mem (by decide),
    List.splitOn_eq_singleton (notMem_decimalText (by decide))]

/-- A line of two fields is not the total where the first one is a device. -/
theorem toLower_deviceText (major minor : UInt64) :
    (deviceText major minor).map Char.toLower ≠ "total".toList := by
  intro h
  have hmem : Char.toLower ':' ∈ (deviceText major minor).map Char.toLower :=
    List.mem_map_of_mem (List.mem_append_right _ List.mem_cons_self)
  rw [h] at hmem
  exact absurd hmem (by decide)

theorem noBare_cons {l : BlkioLine} : NoBare (l :: ls) ↔ l.isBare = false ∧ NoBare ls :=
  List.forall_mem_cons

theorem blkioEntries_of_noBare (h : NoBare ls) :
    blkioEntries (ls.map BlkioLine.text) = .ok (deviceEntries ls) := by
  induction ls with
  | nil => rfl
  | cons l ls ih =>
    obtain ⟨hl, hls⟩ := noBare_cons.1 h
    rw [List.map_cons, blkioEntries]
    cases l with
    | device major minor op value =>
      rw [splitOn_device]
      dsimp only
      rw [parseU64_decimalText, Outcome.ok_bind, splitOn_deviceText]
      dsimp only
      rw [parseU64_decimalText, Outcome.ok_bind, parseU64_decimalText, Outcome.ok_bind, ih hls]
      rfl
    | bare major minor value => cases hl
    | total value =>
      rw [splitOn_total]
      dsimp only
      rw [if_pos (by decide), ih hls]
      rfl

theorem noBare_of_blkioEntries {es : List BlkioStatsEntry}
    (h : blkioEntries (ls.map BlkioLine.text) = .ok es) : NoBare ls := by
  induction ls generalizing es with
  | nil => exact fun _ h => absurd h List.not_mem_nil
  | cons l ls ih =>
    rw [List.map_cons, blkioEntries] at h
    cases l with
    | device major minor op value =>
      rw [splitOn_device] at h
      dsimp only at h
      rw [parseU64_decimalText, Outcome.ok_bind, splitOn_deviceText] at h
      dsimp only at h
      rw [parseU64_decimalText, Outcome.ok_bind, parseU64_decimalText, Outcome.ok_bind] at h
      obtain ⟨entries, hentries, -⟩ := Outcome.bind_eq_ok.1 h
      exact noBare_cons.2 ⟨rfl, ih hentries⟩
    | bare major minor value =>
      rw [splitOn_bare] at h
      dsimp only at h
      rw [if_neg (toLower_deviceText major minor)] at h
      cases h
    | total value =>
      rw [splitOn_total] at h
      dsimp only at h
      rw [if_pos (by decide)] at h
      exact noBare_cons.2 ⟨rfl, ih h⟩

theorem getBlkioStat_of_noBare (hg : g.readFile dir file = .ok (blkioText ls)) (h : NoBare ls) :
    getBlkioStat g dir file = .ok (deviceEntries ls) := by
  rw [getBlkioStat, hg, Outcome.ok_bind, lines_blkioText, blkioEntries_of_noBare h]

theorem noBare_of_getBlkioStat {es : List BlkioStatsEntry}
    (hg : g.readFile dir file = .ok (blkioText ls)) (h : getBlkioStat g dir file = .ok es) :
    NoBare ls ∧ es = deviceEntries ls := by
  have hok := h
  rw [getBlkioStat, hg, Outcome.ok_bind, lines_blkioText] at h
  have hno := noBare_of_blkioEntries h
  rw [getBlkioStat_of_noBare hg hno] at hok
  exact ⟨hno, (Outcome.ok.inj hok).symm⟩

theorem Blkio.getStats_of_noBare
    (hg : ∀ file ∈ throttleFiles ++ cfqFiles, g.readFile dir file = .ok (blkioText (files file)))
    (h : ∀ file ∈ blkioFilesRead files, NoBare (files file)) :
    Blkio.getStats g dir = .ok (blkioStatsOf files) := by
  obtain ⟨hserviced, h⟩ := List.forall_mem_cons.1 h
  rw [Blkio.getStats, getBlkioStat_of_noBare (hg _ (by decide)) hserviced, Outcome.ok_bind,
    blkioStatsOf]
  by_cases he : deviceEntries (files "blkio.io_serviced_recursive") = []
  · rw [if_pos he] at h
    have hget (file : String) (hf : file ∈ throttleFiles) :
        getBlkioStat g dir file = .ok (deviceEntries (files file)) :=
      getBlkioStat_of_noBare (hg file (List.mem_append_left _ hf)) (h file hf)
    rw [if_pos he, hget _ (by decide), Outcome.ok_bind, hget _ (by decide)]
    exact congrArg Outcome.ok (if_pos he).symm
  · rw [if_neg he] at h
    have hget (file : String) (hf : file ∈ cfqFiles) :
        getBlkioStat g dir file = .ok (deviceEntries (files file)) :=
      getBlkioStat_of_noBare (hg file (List.mem_append_right _ hf)) (h file hf)
    rw [if_neg he, hget _ (by decide), Outcome.ok_bind, hget _ (by decide), Outcome.ok_bind,
      hget _ (by decide), Outcome.ok_bind, hget _ (by decide), Outcome.ok_bind,
      hget _ (by decide), Outcome.ok_bind, hget _ (by decide), Outcome.ok_bind,
      hget _ (by decide), Outcome.ok_bind]
    exact congrArg Outcome.ok (if_neg he).symm

theorem noBare_of_getStats {stats : BlkioStats}
    (hg : ∀ file ∈ throttleFiles ++ cfqFiles, g.readFile dir file = .ok (blkioText (files file)))
    (h : Blkio.getStats g dir = .ok stats) :
    ∀ file ∈ blkioFilesRead files, NoBare (files file) := by
  have hget {file : String} (hf : file ∈ throttleFiles ++ cfqFiles) {es : List BlkioStatsEntry}
      (he : getBlkioStat g dir file = .ok es) : NoBare (files file) :=
    (noBare_of_getBlkioStat (hg file hf) he).1
  obtain ⟨entry, hentry, h⟩ := Outcome.bind_eq_ok.1 h
  obtain ⟨hserviced, rfl⟩ := noBare_of_getBlkioStat (hg _ (by decide)) hentry
  refine List.forall_mem_cons.2 ⟨hserviced, ?_⟩
  by_cases he : deviceEntries (files "blkio.io_serviced_recursive") = []
  · rw [if_pos he] at h ⊢
    obtain ⟨_, hbytes, h⟩ := Outcome.bind_eq_ok.1 h
    obtain ⟨_, hthrottled, -⟩ := Outcome.bind_eq_ok.1 h
    simp only [throttleFiles, List.forall_mem_cons]
    exact ⟨hget (by decide) hbytes, hget (by decide) hthrottled,
      fun _ h => absurd h List.not_mem_nil⟩
  · rw [if_neg he] at h ⊢
    obtain ⟨_, hsectors, h⟩ := Outcome.bind_eq_ok.1 h
    obtain ⟨_, hbytes, h⟩ := Outcome.bind_eq_ok.1 h
    obtain ⟨_, -, h⟩ := Outcome.bind_eq_ok.1 h
    obtain ⟨_, hqueued, h⟩ := Outcome.bind_eq_ok.1 h
    obtain ⟨_, hservice, h⟩ := Outcome.bind_eq_ok.1 h
    obtain ⟨_, hwait, h⟩ := Outcome.bind_eq_ok.1 h
    obtain ⟨_, hmerged, h⟩ := Outcome.bind_eq_ok.1 h
    obtain ⟨_, htime, -⟩ := Outcome.bind_eq_ok.1 h
    simp only [cfqFiles, List.forall_mem_cons]
    exact ⟨hget (by decide) hsectors, hget (by decide) hbytes, hserviced,
      hget (by decide) hqueued, hget (by decide) hservice, hget (by decide) hwait,
      hget (by decide) hmerged, hget (by decide) htime, fun _ h => absurd h List.not_mem_nil⟩

end

/-- A file is read right exactly if it has no line without an operation, and the statistics are the
right ones exactly if this holds of the files behind them. -/
theorem blkioStats_iff (g : CgroupGuest) (dir : String) (files : String → List BlkioLine)
    (hg : ∀ file ∈ throttleFiles ++ cfqFiles,
      g.readFile dir file = .ok (blkioText (files file))) :
    (∀ file ∈ throttleFiles ++ cfqFiles,
      (getBlkioStat g dir file = .ok (deviceEntries (files file)) ↔ NoBare (files file))) ∧
    (Blkio.getStats g dir = .ok (blkioStatsOf files) ↔
      ∀ file ∈ blkioFilesRead files, NoBare (files file)) := by
  constructor
  · intro file hf
    exact ⟨fun h => (noBare_of_getBlkioStat (hg file hf) h).1, getBlkioStat_of_noBare (hg file hf)⟩
  · exact ⟨noBare_of_getStats hg, Blkio.getStats_of_noBare hg⟩

/-- A guest with the given blkio files and no others. -/
def blkioGuest (files : String → List BlkioLine) : CgroupGuest where
  read path :=
    match (throttleFiles ++ cfqFiles).find? fun file => path = "/" ++ file with
    | some file => .ok (blkioText (files file))
    | none => .error notFound
  hugepageSizes := []
  perTick v := v / 100

theorem blkioGuest_readFile (files : String → List BlkioLine) (file : String)
    (h : file ∈ throttleFiles ++ cfqFiles) :
    (blkioGuest files).readFile "" file = .ok (blkioText (files file)) := by
  have hfind : ∀ file ∈ throttleFiles ++ cfqFiles,
      (throttleFiles ++ cfqFiles).find? (fun f => "" ++ "/" ++ file = "/" ++ f) = some file := by
    decide
  rw [CgroupGuest.readFile, blkioGuest]
  dsimp only
  rw [hfind file h]

def readOp : OpName where
  chars := "Read".toList
  no_space := forall_mem_of_all (by decide)

/-- One device that was read from, and the total. -/
theorem blkioStats_read : Blkio.getStats
    (blkioGuest fun _ => [.device 8 0 readOp 4096, .total 4096]) "" =
      .ok (blkioStatsOf fun _ => [.device 8 0 readOp 4096, .total 4096]) :=
  (blkioStats_iff _ "" (fun _ => [.device 8 0 readOp 4096, .total 4096])
    (blkioGuest_readFile _)).2.2 (by decide)

/-- The sectors of a device, as the CFQ scheduler counts them. -/
def cfqSectors (file : String) : List BlkioLine :=
  if file = "blkio.sectors_recursive" then [.bare 8 0 1234]
  else [.device 8 0 readOp 4096, .total 4096]

theorem blkioStats_sectors : ¬ ∀ (g : CgroupGuest) (dir : String)
    (files : String → List BlkioLine), (∀ file ∈ throttleFiles ++ cfqFiles,
      g.readFile dir file = .ok (blkioText (files file))) →
    (∀ file ∈ throttleFiles ++ cfqFiles,
      getBlkioStat g dir file = .ok (deviceEntries (files file))) ∧
    Blkio.getStats g dir = .ok (blkioStatsOf files) := by
  intro h
  obtain ⟨-, hstats⟩ := h (blkioGuest cfqSectors) "" cfqSectors (blkioGuest_readFile cfqSectors)
  have hno := noBare_of_getStats (blkioGuest_readFile cfqSectors) hstats
  exact absurd (hno "blkio.sectors_recursive" (by decide)) (by decide)

end KataAgent
