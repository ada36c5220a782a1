import KataAgent.CopyFile

namespace KataAgent
open Fallible FileTrees TreePaths
set_option autoImplicit true

/-- The call makes or changes the file at the node. -/
def CopyCall.Touches (node : List Chars) : CopyCall → Prop
  | .openFile path => path = node
  | .writeAllAt path _ _ => path = node
  | .rename src dest => src = node ∨ dest = node
  | _ => False

def CopyFileRequest.chunk (req : CopyFileRequest) (offset : Nat) (data : List UInt8) :
    CopyFileRequest :=
  { req with offset := offset, data }

/-- The requests for consecutive chunks. -/
def chunkRequests (req : CopyFileRequest) : Nat → List (List UInt8) → List CopyFileRequest
  | _, [] => []
  | offset, c :: cs => req.chunk offset c :: chunkRequests req (offset + c.length) cs

/-- The request for the whole transfer, with the size of its content. -/
def CopyFileRequest.sized (req : CopyFileRequest) (content : List UInt8) : CopyFileRequest :=
  { req with fileSize := content.length }

/-- The requests of the transfer succeed, and the target is touched with the last one only, which
leaves the content at it. -/
def Delivers (g : CopyGuest) (disk : Disk) (req : CopyFileRequest) (earlier : List (List UInt8))
    (last : List UInt8) : Prop :=
  let content := earlier.flatten ++ last
  ∃ path s t, g.real req.path = .ok path ∧
    (chunkRequests (req.sized content) 0 earlier).forM (doCopyFile g) ⟨disk, []⟩ = (.ok (), s) ∧
    (∀ c ∈ s.calls, ¬ c.Touches path.names) ∧
    doCopyFile g ((req.sized content).chunk earlier.flatten.length last) s = (.ok (), t) ∧
    (∃ src, .rename src path.names ∈ t.calls) ∧
    t.disk.lookup path.names = some (.file content)

/-- The target is there, no call that the transfer makes is refused, and what is left of an earlier
file gathered for the target is no longer than the content, shorter if there are several chunks.
Then the last chunk is not empty either, and the data is gathered outside of the target. -/
def Deliverable (g : CopyGuest) (disk : Disk) (req : CopyFileRequest)
    (earlier : List (List UInt8)) (last : List UInt8) : Prop :=
  let content := earlier.flatten ++ last
  ∃ path old left, g.real req.path = .ok path ∧ baseNode <:+ path.names ∧
    disk.lookup path.names = some (.file old) ∧
    Disk.contents disk (tmpfile path.names) = some left ∧
    (∀ r ∈ chunkRequests (req.sized content) 0 (earlier ++ [last]),
      ∀ c ∈ r.sending path.names, g.Serves c) ∧
    (∀ c ∈ req.finishing path.names, g.Serves c) ∧
    left.length ≤ content.length ∧
    (earlier = [] ∨
      last ≠ [] ∧ left.length < content.length ∧ tmpfile path.names ≠ path.names)

section
variable {g : CopyGuest} {disk : Disk} {s t : CopyState} {req : CopyFileRequest}
variable {path : Canonical} {old left d c : List UInt8} {cs : List (List UInt8)}

/-- What the file gathered holds once `d` has been written over what was left there. -/
def overlaid (d left : List UInt8) : List UInt8 := d ++ left.drop d.length

theorem length_overlaid : (overlaid d left).length = max d.length left.length := by
  rw [overlaid, List.length_append, List.length_drop]
  omega

theorem written_overlaid :
    (req.chunk d.length c).written (overlaid d left) = overlaid (d ++ c) left := by
  rw [CopyFileRequest.written]
  split
  · rename_i hc
    have hc : c = [] := hc
    rw [hc, List.append_nil]
  · have ht : (overlaid d left).take d.length = d := by rw [overlaid, List.take_left]
    have hz : d.length - (overlaid d left).length = 0 := by
      rw [length_overlaid]
      omega
    have hdrop : (overlaid d left).drop (d.length + c.length) = left.drop (d ++ c).length := by
      rw [overlaid, ← List.drop_drop, List.drop_left, List.drop_drop, List.length_append]
    change overwrite (overlaid d left) (d.length : Int).toNat c = _
    rw [Int.toNat_natCast, overwrite, ht, hz, hdrop, List.replicate_zero, List.append_nil, overlaid]

theorem touches_sending (ht : tmpfile path.names ≠ path.names) :
    ∀ c ∈ req.sending path.names, ¬ c.Touches path.names := by
  intro c hc
  rw [CopyFileRequest.sending] at hc
  split at hc
  · simp only [List.append_nil, List.mem_append, List.mem_cons, List.not_mem_nil, or_false] at hc
    rcases hc with (rfl | rfl | rfl) | rfl
    · exact id
    · exact id
    · exact ht
    · exact id
  · simp only [List.mem_append, List.mem_cons, List.not_mem_nil, or_false] at hc
    rcases hc with ((rfl | rfl | rfl) | rfl) | rfl
    · exact id
    · exact id
    · exact ht
    · exact ht
    · exact id

theorem openFile_mem_sending : .openFile (tmpfile path.names) ∈ req.sending path.names := by
  simp [CopyFileRequest.sending]

theorem rename_notMem_sending {src dest : List Chars} :
    .rename src dest ∉ req.sending path.names := by
  rw [CopyFileRequest.sending]
  split
  · simp
  · simp

/-- A request that leaves the target alone adds to the file gathered, which is not whole yet. -/
theorem doCopyFile_untouched_iff (hr : g.real req.path = .ok path) :
    (doCopyFile g req s = (.ok (), t) ∧ ∀ c ∈ t.calls, ¬ c.Touches path.names) ↔
      (∀ c ∈ s.calls, ¬ c.Touches path.names) ∧ tmpfile path.names ≠ path.names ∧
        ∃ old, g.Sends req s.disk path old ∧ ((req.written old).length : Int) ≠ req.fileSize ∧
          t = ⟨req.gathered s.disk path.names old, s.calls ++ req.sending path.names⟩ := by
  constructor
  · rintro ⟨h, hu⟩
    obtain ⟨path', old, hs, h⟩ := doCopyFile_eq_ok.1 h
    cases hs.real.symm.trans hr
    rcases h with ⟨hsize, rfl⟩ | ⟨-, -, -, rfl⟩
    · refine ⟨fun c hc => hu c (List.mem_append_left _ hc), fun he => ?_, old, hs, hsize, rfl⟩
      exact hu _ (List.mem_append_right _ openFile_mem_sending) he
    · refine absurd (.inr rfl) (hu (.rename (tmpfile path.names) path.names) ?_)
      exact List.mem_append_right _ (by simp [CopyFileRequest.finishing])
  · rintro ⟨hu, ht, old, hs, hsize, rfl⟩
    refine ⟨doCopyFile_eq_ok.2 ⟨path, old, hs, .inl ⟨hsize, rfl⟩⟩, fun c hc => ?_⟩
    rcases List.mem_append.1 hc with hc | hc
    · exact hu c hc
    · exact touches_sending ht c hc

theorem Disk.contents_put (hr : disk.HasRoom node) :
    Disk.contents (disk.put node (.file data)) node = some data := by
  rw [Disk.contents, FileTree.lookup_put_self hr]

theorem CopyGuest.Sends.contents_gathered (h : g.Sends req s.disk path old) :
    Disk.contents (req.gathered s.disk path.names old) (tmpfile path.names) =
      some (req.written old) :=
  Disk.contents_put h.hasRoom

theorem CopyFileRequest.lookup_gathered_ne (h : tmpfile path.names ≠ path.names) :
    (req.gathered disk path.names old).lookup path.names = disk.lookup path.names :=
  FileTree.lookup_put_ne h.symm

theorem calls_subset_of_doCopyFile (h : doCopyFile g req s = (.ok (), t)) : s.calls ⊆ t.calls := by
  obtain ⟨path, old, -, ⟨-, rfl⟩ | ⟨-, -, -, rfl⟩⟩ := doCopyFile_eq_ok.1 h
  · exact List.subset_append_left _ _
  · rw [List.append_assoc]
    exact List.subset_append_left _ _

theorem calls_subset_of_forM {rs : List CopyFileRequest}
    (h : rs.forM (doCopyFile g) s = (.ok (), t)) : s.calls ⊆ t.calls := by
  induction rs generalizing s with
  | nil =>
    cases h
    exact List.Subset.refl _
  | cons r rs ih =>
    obtain ⟨a, u, hstep, hrest⟩ := Act.bind_eq_ok.1 h
    exact List.Subset.trans (calls_subset_of_doCopyFile hstep) (ih hrest)

/-- What earlier chunks do that leave the target alone. -/
theorem gathered_of_untouched (hr : g.real req.path = .ok path)
    (hc : Disk.contents s.disk (tmpfile path.names) = some (overlaid d left))
    (h : (chunkRequests req d.length cs).forM (doCopyFile g) s = (.ok (), t))
    (hu : ∀ c ∈ t.calls, ¬ c.Touches path.names) :
    Disk.contents t.disk (tmpfile path.names) = some (overlaid (d ++ cs.flatten) left) ∧
      t.disk.lookup path.names = s.disk.lookup path.names ∧
      (∀ r ∈ chunkRequests req d.length cs, ∀ c ∈ r.sending path.names, g.Serves c) ∧
      (cs ≠ [] → tmpfile path.names ≠ path.names ∧
        ((overlaid (d ++ cs.flatten) left).length : Int) ≠ req.fileSize) := by
  induction cs generalizing d s with
  | nil =>
    cases h
    rw [List.flatten_nil, List.append_nil]
    exact ⟨hc, rfl, List.forall_mem_nil _, fun hn => absurd rfl hn⟩
  | cons c cs ih =>
    obtain ⟨a, u, hstep, hrest⟩ := Act.bind_eq_ok.1 h
    have hu' : ∀ c ∈ u.calls, ¬ c.Touches path.names :=
      fun c hc => hu c (calls_subset_of_forM hrest hc)
    have hrc : g.real (req.chunk d.length c).path = .ok path := hr
    obtain ⟨-, hne, old, hs, hsize, rfl⟩ := (doCopyFile_untouched_iff hrc).1 ⟨hstep, hu'⟩
    cases hc.symm.trans hs.opened
    have hcu := hs.contents_gathered
    rw [written_overlaid] at hcu hsize
    rw [← List.length_append] at hrest
    obtain ⟨hct, hl, hserved, hend⟩ := ih hcu hrest
    rw [List.append_assoc] at hct hend
    refine ⟨hct, hl.trans (CopyFileRequest.lookup_gathered_ne hne), ?_, fun _ => ⟨hne, ?_⟩⟩
    · rw [chunkRequests, List.forall_mem_cons, ← List.length_append]
      exact ⟨hs.served, hserved⟩
    · cases cs with
      | nil =>
        rw [List.flatten_cons, List.flatten_nil, List.append_nil]
        exact hsize
      | cons c' cs => exact (hend (List.cons_ne_nil _ _)).2

/-- Chunks that stay short of the announced size leave the target alone. -/
theorem exists_untouched (hr : g.real req.path = .ok path) (hb : baseNode <:+ path.names)
    (hf : (s.disk.lookup path.names).isSome)
    (hc : Disk.contents s.disk (tmpfile path.names) = some (overlaid d left))
    (hu : ∀ c ∈ s.calls, ¬ c.Touches path.names)
    (hserved : ∀ r ∈ chunkRequests req d.length cs, ∀ c ∈ r.sending path.names, g.Serves c)
    (hshort : cs ≠ [] → tmpfile path.names ≠ path.names ∧
      ((overlaid (d ++ cs.flatten) left).length : Int) < req.fileSize) :
    ∃ t, (chunkRequests req d.length cs).forM (doCopyFile g) s = (.ok (), t) ∧
      ∀ c ∈ t.calls, ¬ c.Touches path.names := by
  induction cs generalizing d s with
  | nil => exact ⟨s, rfl, hu⟩
  | cons c cs ih =>
    obtain ⟨hne, hlt⟩ := hshort (List.cons_ne_nil _ _)
    rw [chunkRequests, List.forall_mem_cons, ← List.length_append] at hserved
    have hs : g.Sends (req.chunk d.length c) s.disk path (overlaid d left) :=
      ⟨hr, hf, hb, hc, hserved.1, fun _ => Int.natCast_nonneg _⟩
    have hsize :
        (((req.chunk d.length c).written (overlaid d left)).length : Int) ≠ req.fileSize := by
      rw [written_overlaid, length_overlaid]
      rw [length_overlaid, List.flatten_cons, ← List.append_assoc, List.length_append] at hlt
      omega
    have hrc : g.real (req.chunk d.length c).path = .ok path := hr
    obtain ⟨hstep, hu'⟩ := (doCopyFile_untouched_iff hrc).2 ⟨hu, hne, _, hs, hsize, rfl⟩
    have hcu := hs.contents_gathered
    rw [written_overlaid] at hcu
    have hfu : (((req.chunk d.length c).gathered s.disk path.names (overlaid d left)).lookup
        path.names).isSome := by
      rw [CopyFileRequest.lookup_gathered_ne hne]
      exact hf
    obtain ⟨t, hrest, ht⟩ := ih hfu hcu hu' hserved.2 fun _ => ⟨hne, by
      rw [List.append_assoc]
      exact hlt⟩
    refine ⟨t, ?_, ht⟩
    rw [List.length_append] at hrest
    exact (Act.bind_ok hstep).trans hrest

theorem Disk.lookup_moved {src dest : List Chars} (hs : disk.lookup src = some (.file data))
    (hr : disk.HasRoom dest) :
    (Disk.moved disk src dest data).lookup dest = some (.file data) := by
  rw [Disk.moved]
  split
  · rename_i he
    rw [← he, hs]
  · rename_i he
    rw [FileTree.lookup_remove_ne (Ne.symm he), FileTree.lookup_put_self hr]

theorem chunkRequests_append {offset : Nat} {cs' : List (List UInt8)} :
    chunkRequests req offset (cs ++ cs') =
      chunkRequests req offset cs ++ chunkRequests req (offset + cs.flatten.length) cs' := by
  induction cs generalizing offset with
  | nil => rfl
  | cons c cs ih =>
    rw [List.cons_append, chunkRequests, ih, chunkRequests, List.flatten_cons, List.length_append,
      Nat.add_assoc]
    rfl

theorem Disk.notDir_of_contents (h : Disk.contents disk node = some data) :
    disk.lookup node ≠ some .dir := by
  intro hd
  rw [Disk.contents, hd] at h
  cases h

theorem CopyGuest.Sends.gathered_notDir_iff (h : g.Sends req s.disk path old) :
    (req.gathered s.disk path.names old).lookup path.names ≠ some .dir ↔
      s.disk.lookup path.names ≠ some .dir := by
  by_cases he : tmpfile path.names = path.names
  · apply iff_of_true
    · have hr := h.hasRoom
      rw [he] at hr
      rw [CopyFileRequest.gathered, he, FileTree.lookup_put_self hr]
      intro hd
      cases hd
    · have ho := Disk.notDir_of_contents h.opened
      rw [he] at ho
      exact ho
  · rw [CopyFileRequest.lookup_gathered_ne he]

theorem CopyGuest.Sends.lookup_finished (h : g.Sends req s.disk path old)
    (hd : s.disk.lookup path.names ≠ some .dir) :
    (req.finished s.disk path.names old).lookup path.names = some (.file (req.written old)) := by
  apply Disk.lookup_moved (FileTree.lookup_put_self h.hasRoom)
  apply FileTree.hasRoom_of_parent (h.gathered_notDir_iff.2 hd)
  exact (FileTree.lookup_put_ne (tail_ne_setExtension h.names_ne_nil)).trans h.parent

theorem exists_file (hf : (disk.lookup node).isSome) (hd : disk.lookup node ≠ some .dir) :
    ∃ old, disk.lookup node = some (.file old) := by
  obtain ⟨e, he⟩ := Option.isSome_iff_exists.1 hf
  cases e with
  | dir => exact absurd he hd
  | file old => exact ⟨old, he⟩

/-- What is left for the path before the transfer. -/
theorem exists_left (hr : g.real req.path = .ok path)
    (h : (chunkRequests req 0 cs).forM (doCopyFile g) s = (.ok (), t))
    (hl : g.Sends last' t.disk path old) :
    ∃ left, Disk.contents s.disk (tmpfile path.names) = some left := by
  cases cs with
  | nil =>
    cases h
    exact ⟨old, hl.opened⟩
  | cons c cs =>
    obtain ⟨a, u, hstep, -⟩ := Act.bind_eq_ok.1 h
    obtain ⟨path', left, hs⟩ := sends_of_doCopyFile hstep
    cases hs.real.symm.trans hr
    exact ⟨left, hs.opened⟩

/-- The last chunk completes the file. -/
theorem last_chunk_iff (hr : g.real req.path = .ok path)
    (hc : Disk.contents s.disk (tmpfile path.names) = some (overlaid d left))
    (hu : ∀ c ∈ s.calls, ¬ c.Touches path.names) :
    (∃ t, doCopyFile g ((req.sized (d ++ c)).chunk d.length c) s = (.ok (), t) ∧
        (∃ src, .rename src path.names ∈ t.calls) ∧
        t.disk.lookup path.names = some (.file (d ++ c))) ↔
      g.Sends ((req.sized (d ++ c)).chunk d.length c) s.disk path (overlaid d left) ∧
        (∀ c ∈ req.finishing path.names, g.Serves c) ∧
        s.disk.lookup path.names ≠ some .dir ∧ left.length ≤ (d ++ c).length := by
  constructor
  · rintro ⟨t, h, ⟨src, hmem⟩, -⟩
    obtain ⟨path', old, hs, h⟩ := doCopyFile_eq_ok.1 h
    cases hs.real.symm.trans hr
    cases hc.symm.trans hs.opened
    rcases h with ⟨-, rfl⟩ | ⟨hsize, hfinish, hd, rfl⟩
    · rcases List.mem_append.1 hmem with hm | hm
      · exact absurd (.inr rfl) (hu _ hm)
      · exact absurd hm rename_notMem_sending
    · refine ⟨hs, hfinish, hs.gathered_notDir_iff.1 hd, ?_⟩
      rw [written_overlaid, length_overlaid] at hsize
      have hsize : ((max (d ++ c).length left.length : Nat) : Int) = (d ++ c).length := hsize
      omega
  · rintro ⟨hs, hfinish, hd, hle⟩
    have hw : ((req.sized (d ++ c)).chunk d.length c).written (overlaid d left) = d ++ c := by
      rw [written_overlaid, overlaid, List.drop_eq_nil_of_le hle, List.append_nil]
    refine ⟨_, doCopyFile_eq_ok.2 ⟨path, _, hs, .inr ⟨?_, hfinish, hs.gathered_notDir_iff.2 hd,
      rfl⟩⟩, ⟨tmpfile path.names, ?_⟩, ?_⟩
    · rw [hw]
      rfl
    · exact List.mem_append_right _ (by simp [CopyFileRequest.finishing])
    · rw [hs.lookup_finished hd, hw]

/-- The size stays below that of the content until the last chunk. -/
theorem length_overlaid_ne_iff {last : List UInt8} (h : left.length ≤ (d ++ last).length) :
    (overlaid d left).length ≠ (d ++ last).length ↔
      last ≠ [] ∧ left.length < (d ++ last).length := by
  rw [← List.length_pos_iff, length_overlaid]
  rw [List.length_append] at h ⊢
  omega

theorem Delivers.deliverable {earlier : List (List UInt8)} {last : List UInt8}
    (h : Delivers g disk req earlier last) : Deliverable g disk req earlier last := by
  obtain ⟨path, s, t, hr, hrun, hu, hlast, hren, hl⟩ := h
  have hrs : g.real (req.sized (earlier.flatten ++ last)).path = .ok path := hr
  obtain ⟨path', old', hs, -⟩ := doCopyFile_eq_ok.1 hlast
  cases hs.real.symm.trans hr
  obtain ⟨left, hc⟩ := exists_left hrs hrun hs
  obtain ⟨hct, hlt, hserved, hend⟩ := gathered_of_untouched (d := []) hrs hc hrun hu
  obtain ⟨hs, hfinish, hd, hle⟩ := (last_chunk_iff hr hct hu).1 ⟨t, hlast, hren, hl⟩
  have hf := hs.found
  rw [hlt] at hd hf
  obtain ⟨old, hold⟩ := exists_file hf hd
  refine ⟨path, old, left, hr, hs.below, hold, hc, ?_, hfinish, hle, ?_⟩
  · rw [chunkRequests_append, List.forall_mem_append]
    refine ⟨hserved, List.forall_mem_singleton.2 ?_⟩
    rw [Nat.zero_add]
    exact hs.served
  · by_cases he : earlier = []
    · exact .inl he
    · obtain ⟨hne, hshort⟩ := hend he
      obtain ⟨hlast, hlt⟩ := (length_overlaid_ne_iff hle).1 fun hn => hshort (congrArg Nat.cast hn)
      exact .inr ⟨hlast, hlt, hne⟩

theorem Deliverable.delivers {earlier : List (List UInt8)} {last : List UInt8}
    (h : Deliverable g disk req earlier last) : Delivers g disk req earlier last := by
  obtain ⟨path, old, left, hr, hb, hold, hc, hserved, hfinish, hle, hchunks⟩ := h
  have hrs : g.real (req.sized (earlier.flatten ++ last)).path = .ok path := hr
  rw [chunkRequests_append, List.forall_mem_append, Nat.zero_add] at hserved
  have hf : (disk.lookup path.names).isSome := by rw [hold]; rfl
  have hshort (he : earlier ≠ []) : tmpfile path.names ≠ path.names ∧
      ((overlaid ([] ++ earlier.flatten) left).length : Int) <
        (earlier.flatten ++ last).length := by
    obtain ⟨hlast, hlt, hne⟩ := hchunks.resolve_left he
    have hlong := (length_overlaid_ne_iff hle).2 ⟨hlast, hlt⟩
    rw [length_overlaid] at hlong
    rw [length_overlaid, List.nil_append]
    rw [List.length_append] at hlt hlong ⊢
    exact ⟨hne, Int.ofNat_lt.2 (by omega)⟩
  obtain ⟨s, hrun, hu⟩ := exists_untouched (d := []) (s := ⟨disk, []⟩) hrs hb hf hc
    (List.forall_mem_nil _) hserved.1 hshort
  obtain ⟨hct, hlt, -, -⟩ := gathered_of_untouched (d := []) hrs hc hrun hu
  have hs : g.Sends ((req.sized (earlier.flatten ++ last)).chunk earlier.flatten.length last)
      s.disk path (overlaid earlier.flatten left) := by
    refine ⟨hr, ?_, hb, hct, List.forall_mem_singleton.1 hserved.2, fun _ => Int.natCast_nonneg _⟩
    rw [hlt]
    exact hf
  have hd : s.disk.lookup path.names ≠ some .dir := by
    rw [hlt, hold]
    intro hn
    cases hn
  obtain ⟨t, hlast, hren, hl⟩ := (last_chunk_iff hr hct hu).2 ⟨hs, hfinish, hd, hle⟩
  exact ⟨path, s, t, hr, hrun, hu, hlast, hren, hl⟩

/-- A transfer in consecutive chunks delivers its content. -/
theorem delivers_iff (g : CopyGuest) (disk : Disk) (req : CopyFileRequest)
    (earlier : List (List UInt8)) (last : List UInt8) :
    Delivers g disk req earlier last ↔ Deliverable g disk req earlier last :=
  ⟨Delivers.deliverable, Deliverable.delivers⟩

/-- Nothing is delivered to a path without a file. -/
theorem not_delivers_of_missing {earlier : List (List UInt8)} {last : List UInt8}
    (hr : g.real req.path = .ok path) (hm : disk.lookup path.names = none) :
    ¬ Delivers g disk req earlier last := by
  intro h
  obtain ⟨path', old, left, hr', -, hold, -⟩ := h.deliverable
  cases hr'.symm.trans hr
  cases hm.symm.trans hold

end

/-- The container directory, which is empty. -/
def freshDisk : Disk := FileTree.dirs baseNode

def freshPath : Canonical := ⟨"hosts".toList :: baseNode, by decide⟩

def openGuest : CopyGuest := ⟨fun _ => .ok freshPath, fun _ => none⟩

def freshRequest : CopyFileRequest := ⟨freshPath.text, 1, 0o644, 0o755, 0, 0, 0, [1]⟩

/-- A first transfer to a path below the container directory is refused. -/
theorem first_transfer_refused :
    baseNode <:+ freshPath.names ∧ freshDisk.lookup freshPath.names.tail = some .dir ∧
      ¬ Delivers openGuest freshDisk freshRequest [] [1] :=
  ⟨List.suffix_cons _ _, FileTree.lookup_dirs,
    not_delivers_of_missing rfl FileTree.lookup_dirs_cons⟩

end KataAgent
