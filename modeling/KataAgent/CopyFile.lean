import KataAgent.CgroupFiles
import KataAgent.FileTree
import KataAgent.Message
import KataAgent.TreePaths

namespace KataAgent
open Fallible FileTrees TreePaths
set_option autoImplicit true

def EBADF : Errno := .other 9

def ENOTDIR : Errno := .other 20

def EISDIR : Errno := .other 21

/-- The disks that transfers leave, without a link or a special file at a temporary name. -/
abbrev Disk := FileTree Chars UInt8

structure CopyFileRequest where
  path : Chars
  fileSize : Int
  fileMode : UInt32
  dirMode : UInt32
  uid : Int32
  gid : Int32
  offset : Int
  data : List UInt8

/-- The calls of `do_copy_file` that the guest may refuse. -/
inductive CopyCall where
  | createDirAll (dir : List Chars)
  | chmod (path : List Chars) (mode : UInt32)
  | openFile (path : List Chars)
  | writeAllAt (path : List Chars) (data : List UInt8) (offset : Int)
  | stat (path : List Chars)
  | chown (path : List Chars) (uid gid : UInt32)
  | rename (src dest : List Chars)
  deriving DecidableEq

/-- Where the links lead a path to, and which calls are refused. -/
structure CopyGuest where
  real : Chars → Except Errno Canonical
  refuses : CopyCall → Option Errno

/-- The disk, and the calls made so far. -/
structure CopyState where
  disk : Disk
  calls : List CopyCall

abbrev Copying (α : Type) := Act CopyState Errno α

def baseNode : List Chars := ["agent".toList, "run".toList]

def Disk.createDirAll (disk : Disk) : List Chars → Except Errno Disk
  | [] => .ok disk
  | name :: above =>
    match disk.lookup (name :: above), disk.lookup above with
    | some .dir, _ => .ok disk
    | some (.file _), _ => .error EEXIST
    | none, some (.file _) => .error ENOTDIR
    | none, _ => (Disk.createDirAll disk above).map fun disk => disk.put (name :: above) .dir

def Disk.chmod (disk : Disk) (path : List Chars) : Except Errno Disk :=
  if (disk.lookup path).isSome then .ok disk else .error .ENOENT

def Disk.openFile (disk : Disk) (path : List Chars) : Except Errno Disk :=
  match disk.lookup path with
  | some .dir => .error EISDIR
  | some (.file _) => .ok disk
  | none => if disk.HasRoom path then .ok (disk.put path (.file [])) else .error .ENOENT

/-- The data after a write past what is there, or over it: a gap is filled with zeros. -/
def overwrite (old : List UInt8) (offset : Nat) (data : List UInt8) : List UInt8 :=
  old.take offset ++ List.replicate (offset - old.length) 0 ++ data ++
    old.drop (offset + data.length)

def Disk.writeAllAt (disk : Disk) (path : List Chars) (data : List UInt8) (offset : Int) :
    Except Errno Disk :=
  match disk.lookup path with
  | some (.file old) =>
    if 0 ≤ offset then .ok (disk.put path (.file (overwrite old offset.toNat data)))
    else .error .EINVAL
  | _ => .error EBADF

/-- The size of a file. -/
def Disk.stat (disk : Disk) (path : List Chars) : Except Errno Int :=
  match disk.lookup path with
  | some (.file data) => .ok data.length
  | _ => .error .ENOENT

/-- Rename a file, over another one too. -/
def Disk.rename (disk : Disk) (src dest : List Chars) : Except Errno Disk :=
  match disk.lookup src, disk.lookup dest with
  | some (.file _), some .dir => .error EISDIR
  | some (.file data), _ =>
    if src = dest then .ok disk
    else if disk.HasRoom dest then .ok ((disk.put dest (.file data)).remove src)
    else .error .ENOENT
  | _, _ => .error .ENOENT

def CopyGuest.call (g : CopyGuest) (c : CopyCall) (f : Disk → Except Errno (α × Disk)) :
    Copying α := fun s =>
  match g.refuses c with
  | some e => (.err e, ⟨s.disk, s.calls ++ [c]⟩)
  | none =>
    match f s.disk with
    | .ok (a, disk) => (.ok a, ⟨disk, s.calls ++ [c]⟩)
    | .error e => (.err e, ⟨s.disk, s.calls ++ [c]⟩)

/-- A call that changes the disk. -/
def CopyGuest.change (g : CopyGuest) (c : CopyCall) (f : Disk → Except Errno Disk) :
    Copying Unit :=
  g.call c fun disk => (f disk).map fun disk => ((), disk)

/-- `fs::canonicalize`: the path has to lead to something. -/
def CopyGuest.canonicalize (g : CopyGuest) (path : Chars) : Copying Canonical := fun s =>
  match g.real path with
  | .ok c => if (s.disk.lookup c.names).isSome then (.ok c, s) else (.err .ENOENT, s)
  | .error e => (.err e, s)

/-- A directory that exists already is no error. -/
def CopyGuest.createDirAll (g : CopyGuest) (dir : List Chars) : Copying Unit := fun s =>
  match g.change (.createDirAll dir) (Disk.createDirAll · dir) s with
  | (.err e, t) => if e = EEXIST then (.ok (), t) else (.err e, t)
  | r => r

def CopyGuest.writeAllAt (g : CopyGuest) (path : List Chars) (data : List UInt8) (offset : Int) :
    Copying Unit :=
  if data = [] then pure ()
  else g.change (.writeAllAt path data offset) (Disk.writeAllAt · path data offset)

/-- The part of a name before its last dot, unless nothing stands there. -/
def fileStem (name : Chars) : Chars :=
  let before := (name.reverse.dropWhile (· ≠ '.')).tail.reverse
  if name = ['.', '.'] ∨ before = [] then name else before

def setExtension (extension : Chars) : List Chars → List Chars
  | [] => []
  | name :: above => (fileStem name ++ '.' :: extension) :: above

/-- Where the data for a path is gathered. -/
def tmpfile (path : List Chars) : List Chars := setExtension "tmp".toList path

/-- The part of `do_copy_file` for every chunk, which ends with the size gathered so far. -/
def sendChunk (g : CopyGuest) (req : CopyFileRequest) (path : List Chars) : Copying Int := do
  g.createDirAll path.tail
  g.change (.chmod path.tail req.dirMode) (Disk.chmod · path.tail)
  g.change (.openFile (tmpfile path)) (Disk.openFile · (tmpfile path))
  g.writeAllAt (tmpfile path) req.data req.offset
  g.call (.stat (tmpfile path)) fun disk => (Disk.stat disk (tmpfile path)).map (·, disk)

/-- The part of `do_copy_file` for a file of the announced size. -/
def finishFile (g : CopyGuest) (req : CopyFileRequest) (path : List Chars) : Copying Unit := do
  g.change (.chmod (tmpfile path) req.fileMode) (Disk.chmod · (tmpfile path))
  g.change (.chown (tmpfile path) req.uid.toUInt32 req.gid.toUInt32) (Disk.chmod · (tmpfile path))
  g.change (.rename (tmpfile path) path) (Disk.rename · (tmpfile path) path)

def doCopyFile (g : CopyGuest) (req : CopyFileRequest) : Copying Unit := do
  let path ← g.canonicalize req.path
  if baseNode <:+ path.names then do
    let size ← sendChunk g req path.names
    if size ≠ req.fileSize then pure () else finishFile g req path.names
  else .fail .EINVAL

/-- The calls for every chunk. -/
def CopyFileRequest.sending (req : CopyFileRequest) (path : List Chars) : List CopyCall :=
  [.createDirAll path.tail, .chmod path.tail req.dirMode, .openFile (tmpfile path)] ++
    (if req.data = [] then [] else [.writeAllAt (tmpfile path) req.data req.offset]) ++
    [.stat (tmpfile path)]

/-- The calls for a file of the announced size. -/
def CopyFileRequest.finishing (req : CopyFileRequest) (path : List Chars) : List CopyCall :=
  [.chmod (tmpfile path) req.fileMode, .chown (tmpfile path) req.uid.toUInt32 req.gid.toUInt32,
    .rename (tmpfile path) path]

def CopyGuest.Serves (g : CopyGuest) : CopyCall → Prop
  | .createDirAll dir =>
    g.refuses (.createDirAll dir) = none ∨ g.refuses (.createDirAll dir) = some EEXIST
  | c => g.refuses c = none

/-- The data of a file; what is missing is empty once it is opened. -/
def Disk.contents (disk : Disk) (path : List Chars) : Option (List UInt8) :=
  match disk.lookup path with
  | none => some []
  | some (.file data) => some data
  | some .dir => none

/-- No write is made for no data. -/
def CopyFileRequest.written (req : CopyFileRequest) (old : List UInt8) : List UInt8 :=
  if req.data = [] then old else overwrite old req.offset.toNat req.data

def Disk.moved (disk : Disk) (src dest : List Chars) (data : List UInt8) : Disk :=
  if src = dest then disk else (disk.put dest (.file data)).remove src

/-- The request gets as far as the size of the file gathered for its path. -/
structure CopyGuest.Sends (g : CopyGuest) (req : CopyFileRequest) (disk : Disk) (path : Canonical)
    (old : List UInt8) : Prop where
  real : g.real req.path = .ok path
  found : (disk.lookup path.names).isSome
  below : baseNode <:+ path.names
  opened : Disk.contents disk (tmpfile path.names) = some old
  served : ∀ c ∈ req.sending path.names, g.Serves c
  offset : req.data ≠ [] → 0 ≤ req.offset

/-- The disk with the file gathered so far. -/
def CopyFileRequest.gathered (req : CopyFileRequest) (disk : Disk) (path : List Chars)
    (old : List UInt8) : Disk :=
  disk.put (tmpfile path) (.file (req.written old))

/-- The disk with the whole file at its place. -/
def CopyFileRequest.finished (req : CopyFileRequest) (disk : Disk) (path : List Chars)
    (old : List UInt8) : Disk :=
  Disk.moved (req.gathered disk path old) (tmpfile path) path (req.written old)

section
variable {g : CopyGuest} {disk new : Disk} {s t : CopyState} {c : CopyCall} {node path : List Chars}
variable {req : CopyFileRequest} {old data : List UInt8}

theorem CopyGuest.call_eq_ok {f : Disk → Except Errno (α × Disk)} : g.call c f s = (.ok a, t) ↔
    g.refuses c = none ∧ ∃ disk, f s.disk = .ok (a, disk) ∧ t = ⟨disk, s.calls ++ [c]⟩ := by
  rw [CopyGuest.call]
  cases g.refuses c with
  | some e => simp
  | none =>
    cases f s.disk with
    | error e => simp
    | ok r => simp [Prod.ext_iff, eq_comm (a := t)]

theorem CopyGuest.change_eq_ok {f : Disk → Except Errno Disk} : g.change c f s = (.ok (), t) ↔
    g.refuses c = none ∧ ∃ disk, f s.disk = .ok disk ∧ t = ⟨disk, s.calls ++ [c]⟩ := by
  rw [CopyGuest.change, CopyGuest.call_eq_ok]
  cases f s.disk with
  | error e => simp [Except.map]
  | ok disk => simp [Except.map]

theorem CopyGuest.canonicalize_eq_ok {text : Chars} {c : Canonical} :
    g.canonicalize text s = (.ok c, t) ↔
      g.real text = .ok c ∧ (s.disk.lookup c.names).isSome ∧ t = s := by
  rw [CopyGuest.canonicalize]
  cases g.real text with
  | error e => simp
  | ok d =>
    by_cases hd : (s.disk.lookup d.names).isSome
    · simp only [hd, if_true, Prod.mk.injEq, Outcome.ok.injEq, Except.ok.injEq]
      constructor
      · rintro ⟨rfl, rfl⟩
        exact ⟨rfl, hd, rfl⟩
      · rintro ⟨rfl, -, rfl⟩
        exact ⟨rfl, rfl⟩
    · simp only [hd, Bool.false_eq_true, if_false, Prod.mk.injEq, reduceCtorEq, false_and,
        Except.ok.injEq, false_iff, not_and]
      rintro rfl hs
      exact absurd hs hd

theorem Disk.createDirAll_of_dir (h : disk.lookup node = some .dir) :
    Disk.createDirAll disk node = .ok disk := by
  cases node with
  | nil => rfl
  | cons name above => rw [Disk.createDirAll, h]

theorem CopyGuest.createDirAll_eq_ok (h : s.disk.lookup node = some .dir) :
    g.createDirAll node s = (.ok (), t) ↔
      g.Serves (.createDirAll node) ∧ t = ⟨s.disk, s.calls ++ [.createDirAll node]⟩ := by
  rw [CopyGuest.createDirAll, CopyGuest.change, CopyGuest.call, CopyGuest.Serves]
  cases g.refuses (.createDirAll node) with
  | none =>
    simp only [Disk.createDirAll_of_dir h, Except.map]
    simp [eq_comm (a := t)]
  | some e =>
    by_cases he : e = EEXIST
    · simp [he, eq_comm (a := t)]
    · simp [he]

theorem Disk.hasRoom_of_contents (hp : disk.lookup node.tail = some .dir)
    (hc : Disk.contents disk node = some data) : disk.HasRoom node := by
  apply FileTree.hasRoom_of_parent
  · intro hd
    rw [Disk.contents, hd] at hc
    cases hc
  · exact hp

theorem Disk.openFile_eq_ok (hp : disk.lookup node.tail = some .dir) :
    Disk.openFile disk node = .ok new ↔
      ∃ data, Disk.contents disk node = some data ∧ new = disk.put node (.file data) := by
  rw [Disk.openFile]
  cases hl : disk.lookup node with
  | none =>
    have hc : Disk.contents disk node = some [] := by rw [Disk.contents, hl]
    simp [hc, Disk.hasRoom_of_contents hp hc, eq_comm (a := new)]
  | some e =>
    cases e with
    | dir => simp [Disk.contents, hl]
    | file data =>
      have hc : Disk.contents disk node = some data := by rw [Disk.contents, hl]
      simp [hc, FileTree.put_of_lookup hl, eq_comm (a := new)]

theorem Disk.openFile_eq_ok_of (hp : disk.lookup node.tail = some .dir)
    (hc : Disk.contents disk node = some data) :
    Disk.openFile disk node = .ok new ↔ True ∧ new = disk.put node (.file data) := by
  rw [Disk.openFile_eq_ok hp, hc]
  simp

theorem CopyGuest.writeAllAt_eq_ok (hr : disk.HasRoom node)
    (hs : s.disk = disk.put node (.file old)) :
    g.writeAllAt node req.data req.offset s = (.ok (), t) ↔
      (req.data ≠ [] → g.refuses (.writeAllAt node req.data req.offset) = none ∧
        0 ≤ req.offset) ∧
      t = ⟨disk.put node (.file (req.written old)), s.calls ++
        if req.data = [] then [] else [.writeAllAt node req.data req.offset]⟩ := by
  rw [CopyGuest.writeAllAt, CopyFileRequest.written]
  by_cases hd : req.data = []
  · simp only [hd, if_true, ← hs, List.append_nil]
    simp [eq_comm (a := t)]
  · have hl : s.disk.lookup node = some (.file old) := by
      rw [hs, FileTree.lookup_put_self hr]
    simp only [hd, if_false, CopyGuest.change_eq_ok, Disk.writeAllAt, hl]
    by_cases ho : 0 ≤ req.offset
    · simp [hd, ho, hs, FileTree.put_put hr]
    · simp [hd, ho]

theorem Disk.rename_eq_ok (hs : disk.lookup node = some (.file data))
    (hp : disk.lookup path.tail = some .dir) : Disk.rename disk node path = .ok new ↔
      disk.lookup path ≠ some .dir ∧ new = Disk.moved disk node path data := by
  rw [Disk.rename, Disk.moved, hs]
  by_cases hd : disk.lookup path = some .dir
  · simp [hd]
  · have hr : disk.HasRoom path := FileTree.hasRoom_of_parent hd hp
    by_cases he : node = path
    · simp [hd, he, eq_comm (a := new)]
    · simp [hd, he, hr, eq_comm (a := new)]

theorem tail_setExtension {extension : Chars} :
    (setExtension extension node).tail = node.tail := by
  cases node with
  | nil => rfl
  | cons name above => rfl

theorem tail_tmpfile : (tmpfile node).tail = node.tail := tail_setExtension

/-- A call with one result, if it has one. -/
theorem CopyGuest.change_eq_ok_of {f : Disk → Except Errno Disk} {P : Prop}
    (hf : ∀ d, f s.disk = .ok d ↔ P ∧ d = new) (t : CopyState) :
    g.change c f s = (.ok (), t) ↔ (g.refuses c = none ∧ P) ∧ t = ⟨new, s.calls ++ [c]⟩ := by
  rw [CopyGuest.change_eq_ok]
  simp only [hf]
  constructor
  · rintro ⟨hc, d, ⟨hp, rfl⟩, rfl⟩
    exact ⟨⟨hc, hp⟩, rfl⟩
  · rintro ⟨⟨hc, hp⟩, rfl⟩
    exact ⟨hc, new, ⟨hp, rfl⟩, rfl⟩

theorem Disk.chmod_eq_ok : Disk.chmod disk node = .ok new ↔
    (disk.lookup node).isSome ∧ new = disk := by
  rw [Disk.chmod]
  by_cases hd : (disk.lookup node).isSome
  · simp [hd, eq_comm (a := new)]
  · simp [hd]

theorem sendChunk_eq_ok (hp : s.disk.lookup path.tail = some .dir) {size : Int} :
    sendChunk g req path s = (.ok size, t) ↔
      ∃ old, Disk.contents s.disk (tmpfile path) = some old ∧
        (∀ c ∈ req.sending path, g.Serves c) ∧ (req.data ≠ [] → 0 ≤ req.offset) ∧
        size = (req.written old).length ∧
        t = ⟨req.gathered s.disk path old, s.calls ++ req.sending path⟩ := by
  have ht : s.disk.lookup (tmpfile path).tail = some .dir := by rw [tail_tmpfile, hp]
  rw [sendChunk, Act.bind_unit_eq_ok fun _ => CopyGuest.createDirAll_eq_ok hp,
    Act.bind_unit_eq_ok (CopyGuest.change_eq_ok_of fun _ => Disk.chmod_eq_ok)]
  cases hc : Disk.contents s.disk (tmpfile path) with
  | none =>
    rw [Act.bind_unit_eq_ok (P := False) (u := s)]
    · simp
    · intro v
      rw [CopyGuest.change_eq_ok]
      simp [Disk.openFile_eq_ok ht, hc]
  | some old =>
    have hr := Disk.hasRoom_of_contents ht hc
    rw [Act.bind_unit_eq_ok (CopyGuest.change_eq_ok_of fun _ => Disk.openFile_eq_ok_of ht hc),
      Act.bind_unit_eq_ok fun _ => CopyGuest.writeAllAt_eq_ok hr rfl, CopyGuest.call_eq_ok,
      Disk.stat, FileTree.lookup_put_self hr]
    by_cases hd : req.data = []
    · simp [CopyFileRequest.sending, CopyFileRequest.gathered, CopyGuest.Serves, hd, hp,
        Except.map, and_assoc, eq_comm (a := size)]
    · simp [CopyFileRequest.sending, CopyFileRequest.gathered, CopyGuest.Serves, hd, hp,
        Except.map, and_assoc, and_left_comm, eq_comm (a := size)]

theorem finishFile_eq_ok (hp : s.disk.lookup path.tail = some .dir)
    (hs : s.disk.lookup (tmpfile path) = some (.file data)) :
    finishFile g req path s = (.ok (), t) ↔
      (∀ c ∈ req.finishing path, g.Serves c) ∧ s.disk.lookup path ≠ some .dir ∧
        t = ⟨Disk.moved s.disk (tmpfile path) path data, s.calls ++ req.finishing path⟩ := by
  rw [finishFile, Act.bind_unit_eq_ok (CopyGuest.change_eq_ok_of fun _ => Disk.chmod_eq_ok),
    Act.bind_unit_eq_ok (CopyGuest.change_eq_ok_of fun _ => Disk.chmod_eq_ok),
    CopyGuest.change_eq_ok_of fun _ => Disk.rename_eq_ok hs hp]
  simp [CopyFileRequest.finishing, CopyGuest.Serves, hs, and_assoc]

theorem CopyGuest.Sends.parent {path : Canonical} (h : g.Sends req s.disk path old) :
    s.disk.lookup path.names.tail = some .dir := by
  obtain ⟨e, he⟩ := Option.isSome_iff_exists.1 h.found
  exact FileTree.parent_of_lookup he

theorem CopyGuest.Sends.hasRoom {path : Canonical} (h : g.Sends req s.disk path old) :
    s.disk.HasRoom (tmpfile path.names) :=
  Disk.hasRoom_of_contents ((congrArg s.disk.lookup tail_tmpfile).trans h.parent) h.opened

theorem CopyGuest.Sends.apply {path : Canonical} (h : g.Sends req s.disk path old) :
    doCopyFile g req s =
      if ((req.written old).length : Int) ≠ req.fileSize then
        (.ok (), ⟨req.gathered s.disk path.names old, s.calls ++ req.sending path.names⟩)
      else finishFile g req path.names
        ⟨req.gathered s.disk path.names old, s.calls ++ req.sending path.names⟩ := by
  have hsend : sendChunk g req path.names s = (.ok ((req.written old).length : Int),
      ⟨req.gathered s.disk path.names old, s.calls ++ req.sending path.names⟩) :=
    (sendChunk_eq_ok h.parent).2 ⟨old, h.opened, h.served, h.offset, rfl, rfl⟩
  rw [doCopyFile, Act.bind_ok (CopyGuest.canonicalize_eq_ok.2 ⟨h.real, h.found, rfl⟩),
    if_pos h.below, Act.bind_ok hsend]
  split
  · rfl
  · rfl

theorem sends_of_doCopyFile (h : doCopyFile g req s = (.ok (), t)) :
    ∃ path old, g.Sends req s.disk path old := by
  rw [doCopyFile, Act.bind_eq_ok] at h
  obtain ⟨path, u, hc, h⟩ := h
  obtain ⟨hreal, hfound, rfl⟩ := CopyGuest.canonicalize_eq_ok.1 hc
  split at h
  · rename_i hbelow
    obtain ⟨e, he⟩ := Option.isSome_iff_exists.1 hfound
    obtain ⟨size, v, hsend, -⟩ := Act.bind_eq_ok.1 h
    obtain ⟨old, hopened, hserved, hoffset, -, -⟩ :=
      (sendChunk_eq_ok (FileTree.parent_of_lookup he)).1 hsend
    exact ⟨path, old, hreal, hfound, hbelow, hopened, hserved, hoffset⟩
  · cases h

theorem tail_ne_setExtension {extension : Chars} (h : node ≠ []) :
    node.tail ≠ setExtension extension node := by
  cases node with
  | nil => exact absurd rfl h
  | cons name above => exact List.ne_cons_self

theorem CopyGuest.Sends.names_ne_nil {path : Canonical} (h : g.Sends req s.disk path old) :
    path.names ≠ [] := by
  intro hn
  have hb := h.below
  rw [hn, List.suffix_nil] at hb
  cases hb

theorem CopyGuest.Sends.finish_eq_ok {path : Canonical} (h : g.Sends req s.disk path old) :
    finishFile g req path.names ⟨req.gathered s.disk path.names old,
        s.calls ++ req.sending path.names⟩ = (.ok (), t) ↔
      (∀ c ∈ req.finishing path.names, g.Serves c) ∧
        (req.gathered s.disk path.names old).lookup path.names ≠ some .dir ∧
        t = ⟨req.finished s.disk path.names old,
          s.calls ++ req.sending path.names ++ req.finishing path.names⟩ := by
  apply finishFile_eq_ok
  · exact (FileTree.lookup_put_ne (tail_ne_setExtension h.names_ne_nil)).trans h.parent
  · exact FileTree.lookup_put_self h.hasRoom

/-- What a request does that ends well. -/
theorem doCopyFile_eq_ok : doCopyFile g req s = (.ok (), t) ↔
    ∃ path old, g.Sends req s.disk path old ∧
      ((((req.written old).length : Int) ≠ req.fileSize ∧
          t = ⟨req.gathered s.disk path.names old, s.calls ++ req.sending path.names⟩) ∨
        (((req.written old).length : Int) = req.fileSize ∧
          (∀ c ∈ req.finishing path.names, g.Serves c) ∧
          (req.gathered s.disk path.names old).lookup path.names ≠ some .dir ∧
          t = ⟨req.finished s.disk path.names old,
            s.calls ++ req.sending path.names ++ req.finishing path.names⟩)) := by
  constructor
  · intro h
    obtain ⟨path, old, hs⟩ := sends_of_doCopyFile h
    refine ⟨path, old, hs, ?_⟩
    rw [hs.apply] at h
    split at h
    · rename_i hsize
      cases h
      exact .inl ⟨hsize, rfl⟩
    · rename_i hsize
      exact .inr ⟨not_not.1 hsize, hs.finish_eq_ok.1 h⟩
  · rintro ⟨path, old, hs, ⟨hsize, rfl⟩ | ⟨hsize, h⟩⟩
    · rw [hs.apply, if_pos hsize]
    · rw [hs.apply, if_neg (not_not.2 hsize)]
      exact hs.finish_eq_ok.2 h

end

end KataAgent
